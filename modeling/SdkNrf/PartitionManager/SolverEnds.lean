import SdkNrf.PartitionManager.FlatteningEnds
import SdkNrf.PartitionManager.Layout
import SdkNrf.PartitionManager.Ordering
import SdkNrf.PartitionManager.Prepared

/-!
# When the solver ends

`resolve` followed by `set_shared_size` runs three loops without a bound: the flattening loop, the loop `while
unsolved` and the loop of `get_size_source`.
-/

namespace SdkNrf.PartitionManager

open Relation

section Direction

variable {reqs : PlainReqs} {subs : List Name} {ab : Direction} {st st' : SolveState}

variable {current : Name}

theorem anchorOf_error {solution : List Name} {e : Exc}
    (h : anchorOf reqs ab current solution = .error e) : e = .stopIteration := by
  unfold anchorOf at h
  split at h
  · cases h
  · dsimp only at h
    split at h
    · cases h
    · cases h
      rfl

variable {pool : List Name}

theorem solveDirectionLoop_error {n : Nat} {e : Exc} (hn : st.unsolved.length + pool.length < n)
    (h : solveDirectionLoop reqs ab n pool current st = .error e) : e = .stopIteration := by
  induction n generalizing pool current st with
  | zero => omega
  | succ n ih =>
    unfold solveDirectionLoop at h
    split at h
    · cases h
    split at h
    next x rest hdepends =>
      have hx : x ∈ st.unsolved :=
        (List.mem_filter.mp (hdepends ▸ List.mem_cons_self .. :
          x ∈ st.unsolved.filter (itemIsPlaced reqs ab current))).1
      rcases bind_eq_error.mp h with h | ⟨anchor, -, h⟩
      · exact anchorOf_error h
      · apply ih _ h
        dsimp only
        have hlen := List.length_erase_of_mem hx
        have hpos := List.length_pos_of_mem hx
        omega
    next =>
      split at h
      · cases h
      next next pool =>
        apply ih _ h
        rw [List.length_cons] at hn
        omega

theorem solveDirection_error {e : Exc} (h : solveDirection reqs subs ab st = .error e) :
    e = .stopIteration ∨ e = .indexError := by
  rw [solveDirection] at h
  split at h
  · cases h
    exact Or.inr rfl
  · exact Or.inl (solveDirectionLoop_error (Nat.lt_succ_self _) h)

theorem solveDirectionLoop_length_le {n : Nat}
    (h : solveDirectionLoop reqs ab n pool current st = .ok st') :
    st'.unsolved.length ≤ st.unsolved.length := by
  induction n generalizing pool current st with
  | zero => cases h
  | succ n ih =>
    unfold solveDirectionLoop at h
    split at h
    · cases h
      exact le_refl _
    split at h
    · obtain ⟨anchor, -, h⟩ := bind_eq_ok.mp h
      exact (ih h).trans (List.length_erase_le ..)
    · split at h
      · cases h
        exact le_refl _
      · exact ih h

theorem solveDirectionLoop_progress {n : Nat} (hnames : "" ∉ current :: pool)
    (h : solveDirectionLoop reqs ab n pool current st = .ok st') :
    (st' = st ∧ ∀ c ∈ current :: pool, ∀ x ∈ st.unsolved, itemIsPlaced reqs ab c x ≠ true) ∨
      st'.unsolved.length < st.unsolved.length := by
  induction n generalizing pool current with
  | zero => cases h
  | succ n ih =>
    rw [List.mem_cons, not_or] at hnames
    unfold solveDirectionLoop at h
    rw [if_neg (Ne.symm hnames.1)] at h
    split at h
    next x rest hdepends =>
      right
      have hx : x ∈ st.unsolved :=
        (List.mem_filter.mp (hdepends ▸ List.mem_cons_self .. :
          x ∈ st.unsolved.filter (itemIsPlaced reqs ab current))).1
      obtain ⟨anchor, -, h⟩ := bind_eq_ok.mp h
      have hle := solveDirectionLoop_length_le h
      have hlen := List.length_erase_of_mem hx
      have hpos := List.length_pos_of_mem hx
      dsimp only at hle
      omega
    next hdepends =>
      rw [List.filter_eq_nil_iff] at hdepends
      split at h
      · cases h
        left
        refine ⟨rfl, fun c hc x hx => ?_⟩
        rw [List.mem_singleton.mp hc]
        exact hdepends x hx
      next next pool =>
        rcases ih hnames.2 h with ⟨rfl, hnone⟩ | hlt
        · left
          refine ⟨rfl, fun c hc x hx => ?_⟩
          rcases List.mem_cons.mp hc with rfl | hc
          · exact hdepends x hx
          · exact hnone c hc x hx
        · exact Or.inr hlt

theorem solveDirection_progress (hnames : "" ∉ st.solution ++ subs)
    (h : solveDirection reqs subs ab st = .ok st') :
    (st' = st ∧ ∀ c ∈ st.solution ++ subs, ∀ x ∈ st.unsolved, itemIsPlaced reqs ab c x ≠ true) ∨
      st'.unsolved.length < st.unsolved.length := by
  rw [solveDirection] at h
  split at h
  · cases h
  next current pool hpool =>
    rw [hpool] at hnames ⊢
    exact solveDirectionLoop_progress hnames h

end Direction

/-- Following the first reference of a `before` or an `after` list, from one partition of
`unsolved` to the next, one gets from `x` to a member of `placed`. -/
inductive Anchored (reqs : PlainReqs) (placed unsolved : List Name) : Name → Prop
  | here {ab : Direction} {current x : Name} (hitem : itemIsPlaced reqs ab current x = true)
      (hplaced : current ∈ placed) : Anchored reqs placed unsolved x
  | through {ab : Direction} {current x : Name} (hitem : itemIsPlaced reqs ab current x = true)
      (hmem : current ∈ unsolved) (hcurrent : Anchored reqs placed unsolved current) :
      Anchored reqs placed unsolved x

section While

variable {reqs : PlainReqs} {subs : List Name} {st₀ st st' : SolveState}

theorem Anchored.exists_ready {x : Name}
    (hx : Anchored reqs (st₀.solution ++ subs) st₀.unsolved x) (hrun : PlaceRun reqs subs st₀ st)
    (hwait : x ∈ st.unsolved) :
    ∃ ab, ∃ y ∈ st.unsolved, ∃ c ∈ st.solution ++ subs, itemIsPlaced reqs ab c y = true := by
  induction hx with
  | @here ab current x hitem hplaced =>
    refine ⟨ab, x, hwait, current, ?_, hitem⟩
    rcases List.mem_append.mp hplaced with hc | hc
    · exact List.mem_append_left _ (hrun.sublist.subset hc)
    · exact List.mem_append_right _ hc
  | @through ab current x hitem hmem _ ih =>
    have hall : current ∈ st.all := hrun.perm.mem_iff.mpr (List.mem_append_right _ hmem)
    rcases List.mem_append.mp hall with hc | hc
    · exact ⟨ab, x, hwait, current, List.mem_append_left _ hc, hitem⟩
    · exact ih hc

theorem PlaceRun.unsolved_subset (hrun : PlaceRun reqs subs st₀ st) :
    ∀ x ∈ st.unsolved, x ∈ st₀.unsolved := by
  induction hrun with
  | refl => exact fun _ hx => hx
  | tail _ hstep ih =>
    cases hstep with
    | place => exact fun x hx => ih x (List.mem_of_mem_erase hx)

theorem solveUnsolved_error {n : Nat} {e : Exc}
    (h : solveUnsolved reqs subs n st = .error e) :
    e = .stopIteration ∨ e = .indexError ∨ e = .running := by
  induction n generalizing st with
  | zero =>
    rw [solveUnsolved] at h
    split at h
    · cases h
    · cases h
      exact Or.inr (Or.inr rfl)
  | succ n ih =>
    rw [solveUnsolved] at h
    split at h
    · cases h
    · rcases bind_eq_error.mp h with h | ⟨st₁, -, h⟩
      · exact (solveDirection_error h).imp_right Or.inl
      · rcases bind_eq_error.mp h with h | ⟨st₂, -, h⟩
        · exact (solveDirection_error h).imp_right Or.inl
        · exact ih h

theorem solveUnsolved_stable :
    FuelStable .running fun n => solveUnsolved reqs subs n st := by
  intro n h
  dsimp only at h ⊢
  induction n generalizing st with
  | zero =>
    rw [solveUnsolved] at h
    rw [solveUnsolved, solveUnsolved]
    split at h
    next hnil => rw [if_pos hnil, if_pos hnil]
    next => exact absurd rfl h
  | succ n ih =>
    rw [solveUnsolved] at h
    rw [solveUnsolved]
    conv_rhs => rw [solveUnsolved]
    split at h
    next hnil => rw [if_pos hnil, if_pos hnil]
    next hne =>
      rw [if_neg hne, if_neg hne]
      cases h₁ : solveDirection reqs subs .before st with
      | error e => rfl
      | ok st₁ =>
        rw [h₁] at h
        change (solveDirection reqs subs .after st₁ >>= solveUnsolved reqs subs (n + 1)) =
          solveDirection reqs subs .after st₁ >>= solveUnsolved reqs subs n
        change (solveDirection reqs subs .after st₁ >>= solveUnsolved reqs subs n) ≠ _ at h
        cases h₂ : solveDirection reqs subs .after st₁ with
        | error e => rfl
        | ok st₂ =>
          rw [h₂] at h
          exact ih h

theorem round_progress {st₁ st₂ : SolveState}
    (hall : ∀ x ∈ st₀.unsolved, Anchored reqs (st₀.solution ++ subs) st₀.unsolved x)
    (hnames : "" ∉ st₀.all ++ subs) (hrun : PlaceRun reqs subs st₀ st) (hne : st.unsolved ≠ [])
    (h₁ : solveDirection reqs subs .before st = .ok st₁)
    (h₂ : solveDirection reqs subs .after st₁ = .ok st₂) :
    st₂.unsolved.length < st.unsolved.length := by
  obtain ⟨x, hx⟩ := List.exists_mem_of_ne_nil _ hne
  obtain ⟨ab, y, hy, c, hc, hitem⟩ :=
    (hall x (hrun.unsolved_subset x hx)).exists_ready hrun hx
  have hnames' {s : SolveState} (hs : PlaceRun reqs subs st₀ s) : "" ∉ s.solution ++ subs := by
    intro hin
    apply hnames
    rcases List.mem_append.mp hin with hin | hin
    · exact List.mem_append_left _ (hs.perm.mem_iff.mp (List.mem_append_left _ hin))
    · exact List.mem_append_right _ hin
  have hrun₁ := hrun.trans (solveDirection_run h₁)
  have hbefore := solveDirection_progress (hnames' hrun) h₁
  have hafter := solveDirection_progress (hnames' hrun₁) h₂
  rcases hbefore with ⟨rfl, hnone₁⟩ | hlt₁
  · rcases hafter with ⟨rfl, hnone₂⟩ | hlt₂
    · cases ab with
      | before => exact absurd hitem (hnone₁ c hc y hy)
      | after => exact absurd hitem (hnone₂ c hc y hy)
    · exact hlt₂
  · rcases hafter with ⟨rfl, -⟩ | hlt₂
    · exact hlt₁
    · exact hlt₂.trans hlt₁

theorem solveUnsolved_ne_running {n : Nat}
    (hall : ∀ x ∈ st₀.unsolved, Anchored reqs (st₀.solution ++ subs) st₀.unsolved x)
    (hnames : "" ∉ st₀.all ++ subs) (hrun : PlaceRun reqs subs st₀ st)
    (hn : st.unsolved.length ≤ n) : solveUnsolved reqs subs n st ≠ .error .running := by
  induction n generalizing st with
  | zero =>
    rw [solveUnsolved, if_pos (List.length_eq_zero_iff.mp (Nat.le_zero.mp hn))]
    exact fun h => by cases h
  | succ n ih =>
    rw [solveUnsolved]
    split
    · exact fun h => by cases h
    next hne =>
      intro h
      rcases bind_eq_error.mp h with h | ⟨st₁, h₁, h⟩
      · rcases solveDirection_error h with h | h <;> cases h
      · rcases bind_eq_error.mp h with h | ⟨st₂, h₂, h⟩
        · rcases solveDirection_error h with h | h <;> cases h
        · have hlt := round_progress hall hnames hrun hne h₁ h₂
          have hrun₂ := (hrun.trans (solveDirection_run h₁)).trans (solveDirection_run h₂)
          exact ih hrun₂ (by omega) h

theorem PlaceRun.anchored (hrun : PlaceRun reqs subs st₀ st) :
    (∀ x ∈ st.solution, x ∈ st₀.solution ∨
      x ∈ st₀.unsolved ∧ Anchored reqs (st₀.solution ++ subs) st₀.unsolved x) ∧
    ∀ x ∈ st₀.unsolved, x ∈ st.unsolved ∨
      Anchored reqs (st₀.solution ++ subs) st₀.unsolved x := by
  induction hrun with
  | refl => exact ⟨fun _ hx => Or.inl hx, fun _ hx => Or.inl hx⟩
  | @tail st st' hrun hstep ih =>
    obtain ⟨hsolution, hwaiting⟩ := ih
    cases hstep with
    | @place ab current anchor x hx hitem hcurrent hanchor =>
      have hxa : Anchored reqs (st₀.solution ++ subs) st₀.unsolved x := by
        rcases hcurrent with hc | hc
        · rcases hsolution current hc with hc | ⟨hmem, hc⟩
          · exact .here hitem (List.mem_append_left _ hc)
          · exact .through hitem hmem hc
        · exact .here hitem (List.mem_append_right _ hc)
      constructor
      · intro y hy
        rw [(insertNextTo_perm ab x (mem_of_anchorOf hanchor)).mem_iff, List.mem_cons] at hy
        rcases hy with rfl | hy
        · exact Or.inr ⟨PlaceRun.unsolved_subset hrun y hx, hxa⟩
        · exact hsolution y hy
      · intro y hy
        by_cases hyx : y = x
        · exact Or.inr (hyx ▸ hxa)
        · rcases hwaiting y hy with hy | hy
          · exact Or.inl ((List.mem_erase_of_ne hyx).mpr hy)
          · exact Or.inr hy

theorem anchored_of_solveUnsolved {n : Nat} (h : solveUnsolved reqs subs n st₀ = .ok st) :
    ∀ x ∈ st₀.unsolved, Anchored reqs (st₀.solution ++ subs) st₀.unsolved x := by
  obtain ⟨hrun, hnil⟩ := solveUnsolved_run h
  intro x hx
  rcases (PlaceRun.anchored hrun).2 x hx with hw | ha
  · simp [hnil] at hw
  · exact ha

end While

/-- An exception of the program other than `PartitionError`. -/
def Exc.isCrash : Exc → Bool
  | .partitionError _ => false
  | .running => false
  | _ => true

/-- The partition `a` shares the size of `b`, as a descent. -/
def Shares (reqs : PlainReqs) (b a : Name) : Prop := shareSource reqs a = some b

section Sharing

variable {reqs reqs' : PlainReqs}

theorem shareSource_eq {a b : Name} {v : Req (List Name)} {rest : List Name}
    (hv : reqs.get? a = some v) (hshare : v.shareSize = some (b :: rest)) :
    shareSource reqs a = some b := by
  rw [shareSource, hv, Option.bind_some, hshare]
  rfl

variable {e : Exc}

theorem getSizeSource_error {n : Nat} {source : Name} (h : getSizeSource reqs n source = .error e) :
    e.isCrash = true ∨ e = .running := by
  induction n generalizing source with
  | zero =>
    cases h
    exact Or.inr rfl
  | succ n ih =>
    rw [getSizeSource] at h
    split at h
    · cases h
      exact Or.inl rfl
    · split at h
      · cases h
      · cases h
        exact Or.inl rfl
      · exact ih h

theorem getSizeSource_stable (source : Name) :
    FuelStable .running fun n => getSizeSource reqs n source := by
  intro n h
  dsimp only at h ⊢
  induction n generalizing source with
  | zero => exact absurd rfl h
  | succ n ih =>
    rw [getSizeSource] at h
    rw [getSizeSource]
    conv_rhs => rw [getSizeSource]
    split at h
    · rfl
    · split at h
      · rfl
      · rfl
      · exact ih _ h

theorem getSizeSource_ends {source : Name} (hacc : Acc (Shares reqs) source) :
    FuelEnds .running fun n => getSizeSource reqs n source := by
  induction hacc with
  | intro source _ ih =>
    cases hv : reqs.get? source with
    | none => exact ⟨1, by simp [getSizeSource, hv]⟩
    | some v =>
      cases hshare : v.shareSize with
      | none => exact ⟨1, by simp [getSizeSource, hv, hshare]⟩
      | some refs =>
        cases refs with
        | nil => exact ⟨1, by simp [getSizeSource, hv, hshare]⟩
        | cons next rest =>
          obtain ⟨n, hn⟩ := ih next (shareSource_eq hv hshare)
          exact ⟨n + 1, by simpa [getSizeSource, hv, hshare] using hn⟩

/-- A search for the source that returned went down a chain that ends, to a partition that
shares no size. -/
theorem getSizeSource_eq_ok {n : Nat} {a source : Name}
    (h : getSizeSource reqs n a = .ok source) :
    Acc (Shares reqs) a ∧ ReflTransGen (Shares reqs) source a ∧
      (reqs.get? source).bind Req.shareSize = none := by
  induction n generalizing a with
  | zero => cases h
  | succ n ih =>
    rw [getSizeSource] at h
    split at h
    · cases h
    next v hv =>
      split at h
      next hshare =>
        cases h
        have hnone : (reqs.get? source).bind Req.shareSize = none := by
          rw [hv, Option.bind_some, hshare]
        refine ⟨⟨_, fun b hb => ?_⟩, .refl, hnone⟩
        rw [Shares, shareSource, hnone] at hb
        cases hb
      next => cases h
      next next rest hshare =>
        have hedge : Shares reqs next a := shareSource_eq hv hshare
        obtain ⟨hacc, hpath, hnone⟩ := ih h
        refine ⟨⟨_, fun b hb => ?_⟩, hpath.tail hedge, hnone⟩
        rw [Shares] at hb hedge
        rw [hb, Option.some.injEq] at hedge
        exact hedge ▸ hacc

/-- The requirements after the sharer `req` has been counted for its source. -/
def relink (reqs : PlainReqs) (req source : Name) : PlainReqs :=
  (reqs.modify source fun v => { v with sharers := some (v.sharers.getD 0 + 1) }).modify req
    fun v => { v with shareSize := some [source] }

theorem shareSource_relink_of_ne (reqs : PlainReqs) {req source k : Name} (h : k ≠ req) :
    shareSource (relink reqs req source) k = shareSource reqs k := by
  rw [shareSource, shareSource, relink, Dict.get?_modify_of_ne _ _ h, Dict.get?_modify]
  split <;> cases reqs.get? k <;> rfl

theorem shareSource_relink_self {req source b : Name}
    (h : shareSource (relink reqs req source) req = some b) : b = source := by
  rw [shareSource, relink, Dict.get?_modify_self, Dict.get?_modify] at h
  split at h <;> cases hv : reqs.get? req <;> rw [hv] at h <;> cases h <;> rfl

private theorem relink_wellFounded {n : Nat} {req source : Name}
    (hshare : ((reqs.get? req).bind Req.shareSize).isSome)
    (hsource : getSizeSource reqs n req = .ok source) (hwf : WellFounded (Shares reqs)) :
    WellFounded (Shares (relink reqs req source)) := by
  apply hwf.transGen.mono
  intro b a hab
  by_cases ha : a = req
  · subst ha
    rw [shareSource_relink_self hab]
    obtain ⟨-, hpath, hnone⟩ := getSizeSource_eq_ok hsource
    rcases reflTransGen_iff_eq_or_transGen.mp hpath with rfl | hpath
    · simp [hnone] at hshare
    · exact hpath
  · rw [Shares, shareSource_relink_of_ne reqs ha] at hab
    exact .single hab

private theorem acc_of_relink {req source : Name} (hreq : Acc (Shares reqs) req) {a : Name}
    (hacc : Acc (Shares (relink reqs req source)) a) : Acc (Shares reqs) a := by
  induction hacc with
  | intro a _ ih =>
    by_cases ha : a = req
    · exact ha ▸ hreq
    · constructor
      intro b hb
      apply ih
      rwa [Shares, shareSource_relink_of_ne reqs ha]

variable {keys : List Name}

theorem countSharers_error {fuel : Nat} (h : countSharers fuel keys reqs = .error e) :
    e.isCrash = true ∨ e = .running := by
  induction keys generalizing reqs with
  | nil => cases h
  | cons req rest ih =>
    rw [countSharers] at h
    split at h
    · rcases bind_eq_error.mp h with h | ⟨source, -, h⟩
      · exact getSizeSource_error h
      · exact ih h
    · exact ih h

theorem countSharers_stable (keys : List Name) (reqs : PlainReqs) :
    FuelStable .running fun n => countSharers n keys reqs := by
  induction keys generalizing reqs with
  | nil => exact FuelStable.const _
  | cons req rest ih =>
    simp only [countSharers]
    split
    · exact FuelStable.bind (getSizeSource_stable req) fun source => ih _
    · exact ih reqs

theorem countSharers_ends (hwf : WellFounded (Shares reqs)) :
    FuelEnds .running fun n => countSharers n keys reqs := by
  induction keys generalizing reqs with
  | nil => exact ⟨0, fun h => by cases h⟩
  | cons req rest ih =>
    simp only [countSharers]
    split
    next hshare =>
      apply FuelEnds.bind (getSizeSource_stable req) (fun source => countSharers_stable rest _)
        (getSizeSource_ends (hwf.apply req))
      intro n source hsource
      exact ih (relink_wellFounded hshare hsource hwf)
    next => exact ih hwf

theorem acc_of_countSharers {fuel : Nat} (h : countSharers fuel keys reqs = .ok reqs') :
    ∀ k ∈ keys, Acc (Shares reqs) k := by
  induction keys generalizing reqs with
  | nil => simp
  | cons req rest ih =>
    rw [countSharers] at h
    intro k hk
    split at h
    next =>
      obtain ⟨source, hsource, h⟩ := bind_eq_ok.mp h
      have hreq := (getSizeSource_eq_ok hsource).1
      rcases List.mem_cons.mp hk with rfl | hk
      · exact hreq
      · exact acc_of_relink hreq (ih h k hk)
    next hnone =>
      rcases List.mem_cons.mp hk with rfl | hk
      · refine ⟨_, fun b hb => ?_⟩
        rw [Bool.not_eq_true, Option.isSome_eq_false_iff, Option.isNone_iff_eq_none] at hnone
        rw [Shares, shareSource, hnone] at hb
        cases hb
      · exact ih h k hk

theorem sizeof_error {totalSize : Int} {dp : Name} {depth : Nat} {req : Name}
    (h : sizeof reqs totalSize dp depth req = .error e) : e.isCrash = true := by
  induction depth generalizing req with
  | zero =>
    cases h
    rfl
  | succ depth ih =>
    rw [sizeof] at h
    split at h
    · cases h
    split at h
    · cases h
      rfl
    split at h
    · cases h
    next parts _ =>
      obtain ⟨sum, part, hpart⟩ := foldlM_eq_error h
      rcases bind_eq_error.mp hpart with hpart | ⟨z, -, hpart⟩
      · exact ih hpart
      · cases hpart

theorem sharedSize_error {shareWith : Name} {totalSize : Int} {dp : Name}
    (h : sharedSize reqs shareWith totalSize dp = .error e) : e.isCrash = true := by
  rw [sharedSize] at h
  split at h
  · rcases bind_eq_error.mp h with h | ⟨size, -, h⟩
    · exact sizeof_error h
    · split at h <;> cases h
  · cases h
    rfl

theorem setStaticSizes_error {totalSize : Int} {dp : Name}
    (h : setStaticSizes totalSize dp keys reqs = .error e) : e.isCrash = true := by
  induction keys generalizing reqs with
  | nil => cases h
  | cons req rest ih =>
    rw [setStaticSizes] at h
    split at h
    · rcases bind_eq_error.mp h with h | ⟨z, -, h⟩
      · exact sharedSize_error h
      · exact ih h
    · cases h
      rfl

theorem newSizes_error {totalSize : Int} {dp : Name}
    (h : newSizes reqs totalSize dp keys = .error e) : e.isCrash = true := by
  induction keys with
  | nil => cases h
  | cons req rest ih =>
    rw [newSizes] at h
    split at h
    · rcases bind_eq_error.mp h with h | ⟨z, -, h⟩
      · exact sharedSize_error h
      · rcases bind_eq_error.mp h with h | ⟨zs, -, h⟩
        · exact ih h
        · cases h
    · cases h
      rfl

theorem setSharedSize_error {fuel : Nat} {totalSize : Int} {dp : Name}
    (h : setSharedSize fuel reqs totalSize dp = .error e) : e.isCrash = true ∨ e = .running := by
  rw [setSharedSize] at h
  rcases bind_eq_error.mp h with h | ⟨reqs₁, -, h⟩
  · exact countSharers_error h
  · rcases bind_eq_error.mp h with h | ⟨reqs₂, -, h⟩
    · exact Or.inl (setStaticSizes_error h)
    · rcases bind_eq_error.mp h with h | ⟨sizes, -, h⟩
      · exact Or.inl (newSizes_error h)
      · cases h

theorem setSharedSize_stable (reqs : PlainReqs) (totalSize : Int) (dp : Name) :
    FuelStable .running fun n => setSharedSize n reqs totalSize dp := by
  apply FuelStable.bind (countSharers_stable _ _)
  exact fun reqs => FuelStable.const _

theorem setSharedSize_ends {totalSize : Int} {dp : Name} (hwf : WellFounded (Shares reqs)) :
    FuelEnds .running fun n => setSharedSize n reqs totalSize dp := by
  apply FuelEnds.bind (countSharers_stable _ _) (fun reqs => FuelStable.const _)
    (countSharers_ends hwf)
  intro n reqs₁ _
  refine ⟨0, fun h => ?_⟩
  rcases bind_eq_error.mp h with h | ⟨reqs₂, -, h⟩
  · cases setStaticSizes_error h
  · rcases bind_eq_error.mp h with h | ⟨sizes, -, h⟩
    · cases newSizes_error h
    · cases h

theorem shares_wellFounded_of_ok {fuel : Nat} {totalSize : Int} {dp : Name}
    (h : setSharedSize fuel reqs totalSize dp = .ok reqs') : WellFounded (Shares reqs) := by
  rw [setSharedSize] at h
  obtain ⟨reqs₁, h₁, -⟩ := bind_eq_ok.mp h
  constructor
  intro k
  by_cases hk : k ∈ reqs.keys
  · exact acc_of_countSharers h₁ k hk
  · refine ⟨_, fun b hb => ?_⟩
    rw [Shares, shareSource, (Dict.get?_eq_none_iff reqs k).mpr hk] at hb
    cases hb

end Sharing

/-- The loop `while unsolved` and the validation after it. -/
def afterWhile (w : Waiting) (fuel : Nat) : Py Resolved := do
  let st ← solveUnsolved w.reqs w.subs fuel w.state
  validateSpans w.reqs st.solution w.subs
  return { reqs := w.reqs, subs := w.subs, solution := st.solution }

section Stages

variable {ord : SetOrder Name} {fuel : Nat} {dp : Name} {pre : PlainReqs}

theorem resolvePrepared_eq_stages (ord : SetOrder Name) (fuel : Nat) (dp : Name)
    (pre : PlainReqs) :
    resolvePrepared ord fuel dp pre = atWhile ord fuel dp pre >>= fun w => afterWhile w fuel := by
  rw [resolvePrepared, atWhile]
  cases h₁ : solveInside (containerKeys pre) (leafKeys pre) pre with
  | error e => rfl
  | ok reqs₁ =>
    change (cleanSubPartitions ord fuel (leafKeys pre) (containerKeys pre) reqs₁ >>= _) =
      ((cleanSubPartitions ord fuel (leafKeys pre) (containerKeys pre) reqs₁ >>= _) >>= _)
    cases cleanSubPartitions ord fuel (leafKeys pre) (containerKeys pre) reqs₁ <;> rfl

theorem atWhile_stable (ord : SetOrder Name) (dp : Name) (pre : PlainReqs) :
    FuelStable .running fun n => atWhile ord n dp pre := by
  apply FuelStable.bind (FuelStable.const _)
  intro reqs₁
  exact FuelStable.bind (cleanSubPartitions_stable _ _ _ _) fun _ => FuelStable.const _

theorem afterWhile_stable (w : Waiting) : FuelStable .running (afterWhile w) := by
  apply FuelStable.bind solveUnsolved_stable
  exact fun st => FuelStable.const _

theorem resolvePrepared_stable (ord : SetOrder Name) (dp : Name) (pre : PlainReqs) :
    FuelStable .running fun n => resolvePrepared ord n dp pre := by
  simp only [resolvePrepared_eq_stages]
  exact FuelStable.bind (atWhile_stable ord dp pre) afterWhile_stable

theorem solveInside_error {subs keys : List Name} {reqs : PlainReqs} {e : Exc}
    (h : solveInside subs keys reqs = .error e) : e.isCrash = true := by
  induction keys generalizing reqs with
  | nil => cases h
  | cons key keys ih =>
    rw [solveInside] at h
    split at h
    · exact ih h
    · cases h
      rfl
    · split at h
      · exact ih h
      · cases h
        rfl

theorem atWhile_error (hparts : ∀ c, ∀ p ∈ partsOf pre c, p ∈ pre.keys) {e : Exc}
    (h : atWhile ord fuel dp pre = .error e) : e.isCrash = true ∨ e = .running := by
  rw [atWhile] at h
  rcases bind_eq_error.mp h with h | ⟨reqs₁, h₁, h⟩
  · exact Or.inl (solveInside_error h)
  · rcases bind_eq_error.mp h with h | ⟨x, -, h⟩
    · rcases cleanSubPartitions_error h₁ hparts h with rfl | rfl
      · exact Or.inl rfl
      · exact Or.inr rfl
    · cases h

theorem atWhile_ends (hparts : ∀ c, ∀ p ∈ partsOf pre c, p ∈ pre.keys)
    (hdescend : ContainersDescend pre) : FuelEnds .running fun n => atWhile ord n dp pre := by
  cases h₁ : solveInside (containerKeys pre) (leafKeys pre) pre with
  | error e =>
    have hraise : atWhile ord 0 dp pre = .error e := by
      rw [atWhile, h₁]
      rfl
    refine ⟨0, fun h => ?_⟩
    cases hraise.symm.trans h
    cases solveInside_error h₁
  | ok reqs₁ =>
    simp only [atWhile, h₁]
    apply FuelEnds.bind (cleanSubPartitions_stable _ _ _ _) (fun _ => FuelStable.const _)
      (cleanSubPartitions_ends h₁ hparts hdescend)
    intro n x _
    exact ⟨0, fun h => by cases h⟩

/-- The stages of a run that got to the loop `while unsolved`. -/
theorem atWhile_eq_ok {w : Waiting} (h : atWhile ord fuel dp pre = .ok w) :
    ContainersDescend pre ∧ ∃ cleaned unsolved, Cleaned pre cleaned w.subs ∧
      unsolved = getImagesWhichNeedResolving ord cleaned (leafKeys pre) w.subs ∧
      w.reqs = resolveAmbiguousRequirements cleaned unsolved ∧
      w.state = solveFirstLast w.reqs (leafKeys pre) { unsolved, solution := [dp] } := by
  simp only [atWhile, bind_eq_ok, pure_eq_ok] at h
  obtain ⟨reqs₁, h₁, ⟨cleaned, subs⟩, h₂, rfl⟩ := h
  exact ⟨containersDescend_of_ok h₁ h₂, cleaned, _, cleaned_of_ok h₁ h₂, rfl, rfl, rfl⟩

/-- The loop `while unsolved` works on names of partitions. -/
theorem atWhile_names {w : Waiting} (h : atWhile ord fuel dp pre = .ok w) (hdp : dp ∈ pre.keys) :
    ∀ x ∈ w.state.all ++ w.subs, x ∈ pre.keys := by
  obtain ⟨-, cleaned, unsolved, hclean, himages, -, hstate⟩ := atWhile_eq_ok h
  intro x hx
  rcases List.mem_append.mp hx with hx | hx
  · rw [hstate, solveFirstLast] at hx
    rcases SolvedFrom.mem_solveLast_all hx with hx | hx
    · rcases SolvedFrom.mem_solveFirst_all hx with hx | hx
      · rcases List.mem_cons.mp hx with rfl | hx
        · exact hdp
        · rw [himages] at hx
          exact (mem_leafKeys.mp (mem_getImagesWhichNeedResolving.mp hx).1).1
      · exact (mem_leafKeys.mp hx).1
    · exact (mem_leafKeys.mp hx).1
  · exact mem_keys_of_isContainer (hclean.subs_container x hx)

theorem validateSpans_error {reqs : PlainReqs} {solution subs : List Name} {e : Exc}
    (h : validateSpans reqs solution subs = .error e) : e ≠ .running := by
  have hindices {parts : List Name} {e : Exc} (h : indicesOf solution parts = .error e) :
      e = .valueError := by
    induction parts with
    | nil => cases h
    | cons part parts ih =>
      rw [indicesOf] at h
      split at h
      · rcases bind_eq_error.mp h with h | ⟨is, -, h⟩
        · exact ih h
        · cases h
      · cases h
        rfl
  induction subs with
  | nil => cases h
  | cons sub subs ih =>
    rw [validateSpans] at h
    rcases bind_eq_error.mp h with h | ⟨_, -, h⟩
    · rw [validateSpan] at h
      rcases bind_eq_error.mp h with h | ⟨is, -, h⟩
      · rw [hindices h]
        simp
      · cases hcons : consecutive is with
        | false =>
          rw [hcons] at h
          cases h
          simp
        | true =>
          rw [hcons] at h
          cases hfind : (spanOf reqs sub).find? (· ∉ solution) with
          | none =>
            rw [hfind] at h
            cases h
          | some part =>
            rw [hfind] at h
            cases h
            simp
    · exact ih h

/-- The shares of sizes are the same before and after `resolve`. -/
theorem shareSource_resolved {cleaned : PlainReqs} {r : Resolved} {unsolved : List Name}
    (h : SolvedFrom ord dp pre r cleaned unsolved) (k : Name) :
    shareSource r.reqs k = shareSource pre k := by
  have hclean : shareSource cleaned k = shareSource pre k := by
    have hk := h.clean.unspanned k
    rw [unspanned?, unspanned?] at hk
    rw [shareSource, shareSource]
    cases hc : cleaned.get? k with
    | none =>
      rw [hc, Option.map_none, eq_comm, Option.map_eq_none_iff] at hk
      rw [hk]
    | some v =>
      cases hp : pre.get? k with
      | none => simp [hc, hp] at hk
      | some u =>
        rw [hc, hp, Option.map_some, Option.map_some, Option.some.injEq] at hk
        have hshare : v.unspanned.shareSize = u.unspanned.shareSize := by rw [hk]
        rw [Option.bind_some, Option.bind_some]
        exact congrArg (fun l : Option (List Name) => l.bind List.head?) hshare
  rw [← hclean, shareSource, shareSource]
  rcases h.rewrites.entry k with he | ⟨-, v, q, -, hv, he⟩
  · rw [he]
  · rw [he, hv]
    rfl

end Stages

/-- `resolve` followed by `set_shared_size`. -/
def resolveAndShare (ord : SetOrder Name) (fuel : Nat) (reqs : Reqs YamlRefs) (totalSize : Int)
    (dp : Name) : Py PlainReqs := do
  let r ← resolve ord fuel reqs dp
  setSharedSize fuel r.reqs totalSize dp

/-- The run returns or raises `PartitionError`. -/
def EndsProperly (ord : SetOrder Name) (reqs : Reqs YamlRefs) (totalSize : Int) (dp : Name) :
    Prop :=
  ∃ fuel, (∃ out, resolveAndShare ord fuel reqs totalSize dp = .ok out) ∨
    ∃ e, resolveAndShare ord fuel reqs totalSize dp = .error (.partitionError e)

/-- None of the three loops can go on for ever: no containers span each other in a circle, the
first references of every partition that waits for its place lead to a placed partition or to a
container, and, where `resolve` returns, no partitions share their sizes in a circle. -/
structure Progresses (ord : SetOrder Name) (dp : Name) (pre : PlainReqs) : Prop where
  containers : ContainersDescend pre
  placements : ∀ fuel w, atWhile ord fuel dp pre = .ok w → ∀ x ∈ w.state.unsolved,
    Anchored w.reqs (w.state.solution ++ w.subs) w.state.unsolved x
  sharing : ∀ fuel r, resolvePrepared ord fuel dp pre = .ok r → WellFounded (Shares pre)

section WholeRun

variable {ord : SetOrder Name} {fuel : Nat} {reqs : Reqs YamlRefs} {totalSize : Int} {dp : Name}
  {pre : PlainReqs}

theorem resolveAndShare_of_prepared (hprep : prepare reqs dp = .ok pre) (n : Nat) :
    resolveAndShare ord n reqs totalSize dp =
      resolvePrepared ord n dp pre >>= fun r => setSharedSize n r.reqs totalSize dp := by
  rw [resolveAndShare, resolve, hprep]
  rfl

theorem resolveAndShare_stable (ord : SetOrder Name) (reqs : Reqs YamlRefs) (totalSize : Int)
    (dp : Name) : FuelStable .running fun n => resolveAndShare ord n reqs totalSize dp := by
  cases hprep : prepare reqs dp with
  | error e =>
    intro n _
    simp only [resolveAndShare, resolve, hprep]
    rfl
  | ok pre =>
    simp only [resolveAndShare_of_prepared hprep]
    exact FuelStable.bind (resolvePrepared_stable ord dp pre)
      fun r => setSharedSize_stable r.reqs totalSize dp

theorem partsOf_mem_keys (hprep : prepare reqs dp = .ok pre) (hdp : dp ∈ pre.keys) :
    ∀ c, ∀ p ∈ partsOf pre c, p ∈ pre.keys := by
  intro c p hp
  rcases List.mem_append.mp hp with hp | hp
  · rcases prepare_span hprep hp with hp | rfl
    · exact hp
    · exact hdp
  · exact (mem_leafKeys.mp (List.mem_filter.mp hp).1).1

theorem EndsProperly.progresses (h : EndsProperly ord reqs totalSize dp)
    (hprep : prepare reqs dp = .ok pre) (hdp : dp ∈ pre.keys) : Progresses ord dp pre := by
  obtain ⟨n, h⟩ := h
  rw [resolveAndShare_of_prepared hprep] at h
  have hparts := partsOf_mem_keys hprep hdp
  obtain ⟨w, hw⟩ : ∃ w, atWhile ord n dp pre = .ok w := by
    cases hw : atWhile ord n dp pre with
    | ok w => exact ⟨w, rfl⟩
    | error e =>
      rw [resolvePrepared_eq_stages, hw] at h
      rcases h with ⟨out, h⟩ | ⟨pe, h⟩
      · cases h
      · cases h
        rcases atWhile_error hparts hw with h | h <;> cases h
  obtain ⟨st, hst⟩ : ∃ st, solveUnsolved w.reqs w.subs n w.state = .ok st := by
    cases hst : solveUnsolved w.reqs w.subs n w.state with
    | ok st => exact ⟨st, rfl⟩
    | error e =>
      rw [resolvePrepared_eq_stages, hw] at h
      dsimp only [bind, Except.bind] at h
      rw [afterWhile, hst] at h
      rcases h with ⟨out, h⟩ | ⟨pe, h⟩
      · cases h
      · cases h
        rcases solveUnsolved_error hst with h | h | h <;> cases h
  constructor
  case containers => exact (atWhile_eq_ok hw).1
  case placements =>
    intro m w' hw'
    obtain rfl := (atWhile_stable ord dp pre).ok_unique hw hw'
    exact anchored_of_solveUnsolved hst
  case sharing =>
    intro m r hr
    have hn : resolvePrepared ord n dp pre = .ok r := by
      rw [← hr]
      apply (resolvePrepared_stable ord dp pre).agree
      · intro hrun
        rw [hrun] at h
        rcases h with ⟨out, h⟩ | ⟨pe, h⟩ <;> cases h
      · rw [hr]
        exact fun h => by cases h
    rw [hn] at h
    obtain ⟨cleaned, unsolved, hsolved⟩ := resolvePrepared_eq_ok hr
    have hwf : WellFounded (Shares r.reqs) := by
      rcases h with ⟨out, h⟩ | ⟨pe, h⟩
      · exact shares_wellFounded_of_ok h
      · rcases setSharedSize_error h with h | h <;> cases h
    apply hwf.mono
    intro b a hab
    rw [Shares, shareSource_resolved hsolved]
    exact hab

theorem Progresses.ends (h : Progresses ord dp pre) (hprep : prepare reqs dp = .ok pre)
    (hdp : dp ∈ pre.keys) (hnames : "" ∉ pre.keys) :
    FuelEnds .running fun n => resolveAndShare ord n reqs totalSize dp := by
  simp only [resolveAndShare_of_prepared hprep]
  have hparts := partsOf_mem_keys hprep hdp
  have hresolve : FuelEnds .running fun n => resolvePrepared ord n dp pre := by
    simp only [resolvePrepared_eq_stages]
    apply FuelEnds.bind (atWhile_stable ord dp pre) afterWhile_stable
      (atWhile_ends hparts h.containers)
    intro n w hw
    apply FuelEnds.bind solveUnsolved_stable (fun st => FuelStable.const _)
    · refine ⟨_, solveUnsolved_ne_running (h.placements n w hw) ?_ .refl (le_refl _)⟩
      exact fun hin => hnames (atWhile_names hw hdp _ hin)
    · intro m st _
      refine ⟨0, fun he => ?_⟩
      rcases bind_eq_error.mp he with he | ⟨_, -, he⟩
      · exact validateSpans_error he rfl
      · cases he
  apply FuelEnds.bind (resolvePrepared_stable ord dp pre)
    (fun r => setSharedSize_stable r.reqs totalSize dp) hresolve
  intro n r hr
  obtain ⟨cleaned, unsolved, hsolved⟩ := resolvePrepared_eq_ok hr
  apply setSharedSize_ends
  apply (h.sharing n r hr).mono
  intro b a hab
  rw [Shares, shareSource_resolved hsolved] at hab
  exact hab

end WholeRun

theorem solveUnsolved_stuck {reqs : PlainReqs} {subs : List Name} {st : SolveState}
    (hne : st.unsolved ≠ []) (hbefore : solveDirection reqs subs .before st = .ok st)
    (hafter : solveDirection reqs subs .after st = .ok st) (n : Nat) :
    solveUnsolved reqs subs n st = .error .running := by
  induction n with
  | zero => rw [solveUnsolved, if_neg hne]
  | succ n ih =>
    rw [solveUnsolved, if_neg hne, hbefore]
    change solveDirection reqs subs .after st >>= solveUnsolved reqs subs n = _
    rw [hafter]
    exact ih

/-- One partition behind another, which is placed behind `target`. -/
def behind (target : Name) : Reqs YamlRefs :=
  ⟨[("first", { size := some 4096, placement := some ⟨[.after (.str "second")],
      List.nodup_singleton _⟩ }),
    ("second", { size := some 4096, placement := some ⟨[.after (.str target)],
      List.nodup_singleton _⟩ }),
    ("app", { region := some "flash_primary" })], by simp⟩

theorem behind_first_running (n : Nat) :
    resolveAndShare (SetOrder.dedup Name) (n + 1) (behind "first") 1048576 "app" =
      .error .running := by
  obtain ⟨pre, hpre, hw⟩ := exists_of_returnsWith (x := prepare (behind "first") "app")
    (fun pre => returnsWith (atWhile (SetOrder.dedup Name) 1 "app" pre) fun w =>
      decide (w.state.unsolved ≠ []) &&
        (returnsWith (solveDirection w.reqs w.subs .before w.state) fun st =>
          decide (st.unsolved = w.state.unsolved ∧ st.solution = w.state.solution)) &&
        returnsWith (solveDirection w.reqs w.subs .after w.state) fun st =>
          decide (st.unsolved = w.state.unsolved ∧ st.solution = w.state.solution))
    (by decide)
  obtain ⟨w, hw, hcheck⟩ := exists_of_returnsWith _ hw
  rw [Bool.and_eq_true, Bool.and_eq_true, decide_eq_true_iff] at hcheck
  have hsame {x : Py SolveState} (h : returnsWith x (fun st => decide
      (st.unsolved = w.state.unsolved ∧ st.solution = w.state.solution)) = true) :
      x = .ok w.state := by
    obtain ⟨st, rfl, hst⟩ := exists_of_returnsWith _ h
    rw [decide_eq_true_iff] at hst
    cases st
    rw [Except.ok.injEq, SolveState.mk.injEq]
    exact hst
  have hn : atWhile (SetOrder.dedup Name) (n + 1) "app" pre = .ok w := by
    rw [← hw]
    apply (atWhile_stable (SetOrder.dedup Name) "app" pre).of_le (by omega)
    rw [hw]
    exact fun h => by cases h
  rw [resolveAndShare_of_prepared hpre, resolvePrepared_eq_stages, hn]
  change (afterWhile w (n + 1) >>= _) = _
  rw [afterWhile, solveUnsolved_stuck hcheck.1.1 (hsame hcheck.1.2) (hsame hcheck.2)]
  rfl

end SdkNrf.PartitionManager
