import Mathlib

/-!
# SLIP framing

Frames are sent between END bytes, and special bytes in a frame as two bytes that begin with ESC.
-/

namespace SdkNrf.Slip

def endByte : UInt8 := 0xC0

def esc : UInt8 := 0xDB

def escEnd : UInt8 := 0xDC

def escEsc : UInt8 := 0xDD

def stuff (b : UInt8) : List UInt8 :=
  if b = endByte then [esc, escEnd] else if b = esc then [esc, escEsc] else [b]

def escape (data : List UInt8) : List UInt8 := data.flatMap stuff

def frame (data : List UInt8) : List UInt8 := endByte :: (escape data ++ [endByte])

structure State where
  body : List UInt8
  last : UInt8
  deriving DecidableEq, Repr

def State.finished (st : State) (b : UInt8) : List (List UInt8) := if b = endByte then [st.body] else []

def State.step (st : State) (b : UInt8) : State :=
  if b = endByte then ⟨[], b⟩
  else if st.last = esc ∧ b = escEnd then ⟨st.body.dropLast ++ [endByte], b⟩
  else if st.last = esc ∧ b = escEsc then ⟨st.body.dropLast ++ [esc], b⟩
  else ⟨st.body ++ [b], b⟩

def State.run (st : State) : List UInt8 → State × List (List UInt8)
  | [] => (st, [])
  | b :: bytes => (((st.step b).run bytes).1, st.finished b ++ ((st.step b).run bytes).2)

def resume (body : List UInt8) : State := ⟨body, body.getLast?.getD 0⟩

def readAll (body : List UInt8) : List (List UInt8) → List UInt8 × List (List UInt8)
  | [] => (body, [])
  | read :: reads =>
    let (st, frames) := (resume body).run read
    ((readAll st.body reads).1, frames ++ (readAll st.body reads).2)

section Run

variable {st : State}

theorem step_endByte (st : State) : st.step endByte = ⟨[], endByte⟩ := if_pos rfl

theorem step_escEnd (h : st.last = esc) :
    st.step escEnd = ⟨st.body.dropLast ++ [endByte], escEnd⟩ := by
  rw [State.step, if_neg (by decide), if_pos ⟨h, rfl⟩]

theorem step_escEsc (h : st.last = esc) :
    st.step escEsc = ⟨st.body.dropLast ++ [esc], escEsc⟩ := by
  rw [State.step, if_neg (by decide), if_neg (fun hboth => absurd hboth.2 (by decide)),
    if_pos ⟨h, rfl⟩]

theorem step_plain {b : UInt8} (hend : b ≠ endByte)
    (hsecond : ¬ (st.last = esc ∧ (b = escEnd ∨ b = escEsc))) :
    st.step b = ⟨st.body ++ [b], b⟩ := by
  rw [State.step, if_neg hend, if_neg (fun h => hsecond ⟨h.1, Or.inl h.2⟩),
    if_neg (fun h => hsecond ⟨h.1, Or.inr h.2⟩)]

theorem run_append (st : State) (front back : List UInt8) :
    st.run (front ++ back) =
      (((st.run front).1.run back).1, (st.run front).2 ++ ((st.run front).1.run back).2) := by
  induction front generalizing st with
  | nil => rfl
  | cons b front ih =>
    rw [List.cons_append]
    simp only [State.run, ih, List.append_assoc]

theorem run_stuff (h : st.last ≠ esc) (b : UInt8) :
    ∃ last ≠ esc, st.run (stuff b) = (⟨st.body ++ [b], last⟩, []) := by
  by_cases hend : b = endByte
  · refine ⟨escEnd, by decide, ?_⟩
    simp [stuff, State.run, State.step, State.finished, hend, endByte, esc, escEnd, escEsc]
  · by_cases hesc : b = esc
    · refine ⟨escEsc, by decide, ?_⟩
      simp [stuff, State.run, State.step, State.finished, hesc, endByte, esc, escEnd, escEsc]
    · refine ⟨b, hesc, ?_⟩
      simp [stuff, State.run, State.step, State.finished, hend, hesc, h]

theorem run_escape (h : st.last ≠ esc) (data : List UInt8) :
    ∃ last ≠ esc, st.run (escape data) = (⟨st.body ++ data, last⟩, []) := by
  induction data generalizing st with
  | nil => exact ⟨st.last, h, by simp [escape, State.run]⟩
  | cons b data ih =>
    obtain ⟨last, hlast, hstuff⟩ := run_stuff h b
    have hstate : (State.mk (st.body ++ [b]) last).last ≠ esc := hlast
    obtain ⟨last', hlast', hrest⟩ := ih hstate
    refine ⟨last', hlast', ?_⟩
    rw [escape, List.flatMap_cons, run_append, hstuff, ← escape, hrest]
    simp only [List.append_assoc, List.singleton_append, List.append_nil]

/-- A frame comes back behind what has been decoded before. -/
theorem run_frame (st : State) (data : List UInt8) :
    st.run (frame data) = (⟨[], endByte⟩, [st.body, data]) := by
  have hstate : (State.mk [] endByte).last ≠ esc := by decide
  obtain ⟨last, -, hescape⟩ := run_escape hstate data
  rw [frame, State.run, run_append]
  simp only [State.step, State.finished, if_pos, hescape, List.nil_append, State.run, List.append_nil,
    List.singleton_append]

theorem run_frames (frames : List (List UInt8)) :
    (State.mk [] 0).run (frames.flatMap frame) =
      ((⟨[], if frames = [] then 0 else endByte⟩ : State), frames.flatMap fun data => [[], data]) := by
  suffices h : ∀ last : UInt8, (State.mk [] last).run (frames.flatMap frame) =
      ((⟨[], if frames = [] then last else endByte⟩ : State),
        frames.flatMap fun data => [[], data]) from h 0
  induction frames with
  | nil =>
    intro last
    rfl
  | cons data frames ih =>
    intro last
    rw [List.flatMap_cons, run_append, run_frame]
    simp only [ih, List.flatMap_cons]
    simp

end Run

/-- A read ends behind an escaped ESC byte, and the next one begins with what could be the second byte of
another one. -/
def BadCut (front back : List UInt8) : Prop :=
  [esc, escEsc] <:+ front ∧ (back.head? = some escEnd ∨ back.head? = some escEsc)

def CutsWell (reads : List (List UInt8)) : Prop :=
  ∀ front back, reads = front ++ back → ¬ BadCut front.flatten back.flatten

structure Tracks (sent : List UInt8) (st : State) : Prop where
  last : st.last = sent.getLast?.getD 0
  tail : st.last = esc → st.body.getLast? = some esc
  escaped : st.body.getLast? = some esc → st.last = esc ∨ [esc, escEsc] <:+ sent

section Tracks

variable {sent : List UInt8} {st : State}

theorem suffix_pair_iff {x y b : UInt8} : [x, y] <:+ sent ++ [b] ↔ b = y ∧ sent.getLast? = some x := by
  rw [List.suffix_concat_iff]
  constructor
  · rintro (h | ⟨front, hfront, hsuffix⟩)
    · cases h
    · cases front with
      | nil => cases hfront
      | cons first rest =>
        cases rest with
        | nil =>
          cases hfront
          exact ⟨rfl, List.singleton_suffix_iff_getLast?_eq_some.mp hsuffix⟩
        | cons second rest => simp at hfront
  · rintro ⟨rfl, hlast⟩
    exact Or.inr ⟨[x], rfl, List.singleton_suffix_iff_getLast?_eq_some.mpr hlast⟩

theorem getLast?_of_getD {b : UInt8} (hb : b ≠ 0) (h : sent.getLast?.getD 0 = b) :
    sent.getLast? = some b := by
  cases hlast : sent.getLast? with
  | none =>
    rw [hlast] at h
    exact absurd h.symm hb
  | some last =>
    rw [hlast] at h
    rw [← h]
    rfl

theorem tracks_start : Tracks [] ⟨[], 0⟩ :=
  ⟨rfl, fun h => absurd h (by decide), fun h => absurd h (by decide)⟩

theorem step_last (st : State) (b : UInt8) : (st.step b).last = b := by
  unfold State.step
  split_ifs <;> rfl

theorem getLast?_step_of_esc (st : State) : (st.step esc).body.getLast? = some esc := by
  simp [State.step, esc, endByte, escEnd, escEsc]

theorem tail_step (st : State) (b : UInt8) (hlast : (st.step b).last = esc) :
    (st.step b).body.getLast? = some esc := by
  rw [step_last] at hlast
  rw [hlast]
  exact getLast?_step_of_esc st

theorem Tracks.step (h : Tracks sent st) (b : UInt8) : Tracks (sent ++ [b]) (st.step b) := by
  refine ⟨?_, tail_step st b, ?_⟩
  · rw [step_last, List.getLast?_concat]
    rfl
  · intro hesc
    rw [step_last, suffix_pair_iff]
    unfold State.step at hesc
    split_ifs at hesc with hend hescEnd hescEsc
    · cases hesc
    · rw [List.getLast?_concat] at hesc
      cases hesc
    · rw [h.last] at hescEsc
      exact Or.inr ⟨hescEsc.2, getLast?_of_getD (by decide) hescEsc.1⟩
    · rw [List.getLast?_concat] at hesc
      exact Or.inl (Option.some.inj hesc)

theorem Tracks.run (h : Tracks sent st) (bytes : List UInt8) :
    Tracks (sent ++ bytes) (st.run bytes).1 := by
  induction bytes generalizing sent st with
  | nil =>
    rw [List.append_nil]
    exact h
  | cons b bytes ih =>
    rw [List.append_cons]
    exact ih (h.step b)

theorem resume_step (h : Tracks sent st) {b : UInt8} (hcut : ¬ BadCut sent [b]) :
    (resume st.body).step b = st.step b := by
  have hesc : b = escEnd ∨ b = escEsc → ((resume st.body).last = esc ↔ st.last = esc) := by
    intro hb
    have hnot : ¬ [esc, escEsc] <:+ sent := fun hsuffix =>
      hcut ⟨hsuffix, hb.imp (congrArg some) (congrArg some)⟩
    constructor
    · intro hresume
      exact (h.escaped (getLast?_of_getD (by decide) hresume)).resolve_right hnot
    · intro hlast
      simp only [resume, h.tail hlast, Option.getD_some]
  have hescEnd : ((resume st.body).last = esc ∧ b = escEnd) ↔ (st.last = esc ∧ b = escEnd) :=
    and_congr_left fun hb => hesc (Or.inl hb)
  have hescEsc : ((resume st.body).last = esc ∧ b = escEsc) ↔ (st.last = esc ∧ b = escEsc) :=
    and_congr_left fun hb => hesc (Or.inr hb)
  simp only [State.step, hescEnd, hescEsc]
  rfl

/-- A read that begins well is decoded as if there had been no cut. -/
theorem resume_run (h : Tracks sent st) {bytes : List UInt8} (hne : bytes ≠ [])
    (hcut : ¬ BadCut sent bytes) : (resume st.body).run bytes = st.run bytes := by
  cases bytes with
  | nil => exact absurd rfl hne
  | cons b bytes =>
    have hstep := resume_step h (b := b) hcut
    simp only [State.run, hstep]
    rfl

theorem readAll_eq (h : Tracks sent st) {reads : List (List UInt8)} (hne : ∀ read ∈ reads, read ≠ [])
    (hcut : ∀ front back, reads = front ++ back → ¬ BadCut (sent ++ front.flatten) back.flatten) :
    readAll st.body reads = ((st.run reads.flatten).1.body, (st.run reads.flatten).2) := by
  induction reads generalizing sent st with
  | nil => rfl
  | cons read reads ih =>
    have hread := hne read List.mem_cons_self
    have hfirst : ¬ BadCut sent read := by
      have hbad := hcut [] (read :: reads) rfl
      cases read with
      | nil => exact absurd rfl hread
      | cons b bytes => simpa [BadCut] using hbad
    have hrest := ih (h.run read) (fun other hother => hne other (List.mem_cons_of_mem _ hother)) ?_
    · rw [List.flatten_cons, run_append, readAll, resume_run h hread hfirst]
      simp only [hrest]
    · intro front back hreads
      have hbad := hcut (read :: front) back (by rw [hreads, List.cons_append])
      rw [List.flatten_cons, ← List.append_assoc] at hbad
      exact hbad

end Tracks

def totalLen (frames : List (List UInt8)) : Nat := (frames.map List.length).sum

/-- A decoder that has been stopped, beside one that has not: it has lost `lost` bytes at least. -/
structure Lags (sent : List UInt8) (whole cut : State) (wholeLen cutLen lost : Nat) : Prop where
  last : whole.last = sent.getLast?.getD 0
  wholeTail : whole.last = esc → whole.body.getLast? = some esc
  waits : whole.last = esc → cut.last = esc
  tail : cut.last = esc → cut.body.getLast? = some esc
  escaped : [esc, escEsc] <:+ sent → cut.body.getLast? = some esc
  body : cut.body.length ≤ whole.body.length
  total : cutLen + cut.body.length + lost ≤ wholeLen + whole.body.length

section Lags

variable {sent : List UInt8} {whole cut : State} {wholeLen cutLen lost : Nat}

def State.growth (st : State) (b : UInt8) : Nat :=
  if st.last = esc ∧ (b = escEnd ∨ b = escEsc) then 0 else 1

theorem length_step {st : State} (htail : st.last = esc → st.body.getLast? = some esc) {b : UInt8}
    (hend : b ≠ endByte) : (st.step b).body.length = st.body.length + st.growth b := by
  have hreplace (hlast : st.last = esc) (x : UInt8) :
      (st.body.dropLast ++ [x]).length = st.body.length := by
    have hne : st.body ≠ [] := by
      intro hnil
      have hbody := htail hlast
      rw [hnil] at hbody
      cases hbody
    have hpos := List.length_pos_iff.mpr hne
    rw [List.length_append, List.length_dropLast, List.length_singleton]
    omega
  unfold State.step State.growth
  rw [if_neg hend]
  by_cases hlast : st.last = esc
  · by_cases hescEnd : b = escEnd
    · simp [hlast, hescEnd, hreplace hlast]
    · by_cases hescEsc : b = escEsc
      · rw [if_neg (fun h => hescEnd h.2), if_pos ⟨hlast, hescEsc⟩, if_pos ⟨hlast, Or.inr hescEsc⟩]
        exact hreplace hlast esc
      · simp [hescEnd, hescEsc]
  · simp [hlast]

theorem length_step_total {st : State} (htail : st.last = esc → st.body.getLast? = some esc)
    (b : UInt8) : totalLen (st.finished b) + (st.step b).body.length =
      st.body.length + if b = endByte then 0 else st.growth b := by
  by_cases hend : b = endByte
  · simp [State.finished, State.step, totalLen, hend]
  · rw [if_neg hend, length_step htail hend]
    simp [State.finished, totalLen, hend]

theorem Lags.growth_le (h : Lags sent whole cut wholeLen cutLen lost) (b : UInt8) :
    cut.growth b ≤ whole.growth b := by
  unfold State.growth
  by_cases hwhole : whole.last = esc ∧ (b = escEnd ∨ b = escEsc)
  · rw [if_pos hwhole, if_pos ⟨h.waits hwhole.1, hwhole.2⟩]
  · rw [if_neg hwhole]
    split_ifs <;> decide

theorem Lags.step (h : Lags sent whole cut wholeLen cutLen lost) (b : UInt8) :
    Lags (sent ++ [b]) (whole.step b) (cut.step b) (wholeLen + totalLen (whole.finished b))
      (cutLen + totalLen (cut.finished b)) lost := by
  have hgrowth := h.growth_le b
  have hwhole := length_step_total h.wholeTail b
  have hcut := length_step_total h.tail b
  have hbody := h.body
  have htotal := h.total
  refine ⟨?_, tail_step whole b, ?_, tail_step cut b, ?_, ?_, ?_⟩
  · rw [step_last, List.getLast?_concat]
    rfl
  · intro hlast
    rw [step_last] at hlast
    rw [step_last, hlast]
  · intro hescaped
    obtain ⟨rfl, hesc⟩ := suffix_pair_iff.mp hescaped
    have hwaits := h.waits (by rw [h.last, hesc]; rfl)
    simp [State.step, hwaits, endByte, esc, escEnd, escEsc]
  · by_cases hend : b = endByte
    · simp [State.step, hend]
    · rw [length_step h.wholeTail hend, length_step h.tail hend]
      omega
  · split_ifs at hwhole hcut <;> omega

theorem Lags.resume (h : Lags sent whole cut wholeLen cutLen lost) :
    Lags sent whole (Slip.resume cut.body) wholeLen cutLen lost := by
  refine ⟨h.last, h.wholeTail, ?_, ?_, h.escaped, h.body, h.total⟩
  · intro hlast
    simp only [Slip.resume, h.tail (h.waits hlast), Option.getD_some]
  · intro hlast
    exact getLast?_of_getD (by decide) hlast

theorem exists_finished {st : State} (htail : st.last = esc → st.body.getLast? = some esc)
    {bytes : List UInt8} (hend : endByte ∈ bytes) :
    ∃ data ∈ (st.run bytes).2, st.body.length ≤ data.length := by
  induction bytes generalizing st with
  | nil => cases hend
  | cons b bytes ih =>
    rw [State.run]
    by_cases hb : b = endByte
    · refine ⟨st.body, List.mem_append_left _ ?_, le_refl _⟩
      rw [State.finished, if_pos hb]
      exact List.mem_singleton_self _
    · have hrest := (List.mem_cons.mp hend).resolve_left (Ne.symm hb)
      obtain ⟨data, hdata, hle⟩ := ih (tail_step st b) hrest
      have hstep := length_step htail hb
      exact ⟨data, List.mem_append_right _ hdata, by omega⟩

theorem Lags.step_bad {body : List UInt8} (h : Lags sent whole (Slip.resume body) wholeLen cutLen lost)
    {b : UInt8} (hbad : BadCut sent [b]) :
    Lags (sent ++ [b]) (whole.step b) ((Slip.resume body).step b)
      (wholeLen + totalLen (whole.finished b))
      (cutLen + totalLen ((Slip.resume body).finished b)) (lost + 1) := by
  obtain ⟨hescaped, hb⟩ := hbad
  have hsecond : b = escEnd ∨ b = escEsc := hb.imp Option.some.inj Option.some.inj
  have hcutLast : (Slip.resume body).last = esc := by
    have hbody := h.escaped hescaped
    simp only [Slip.resume] at hbody ⊢
    rw [hbody]
    rfl
  have hwholeLast : whole.last ≠ esc := by
    obtain ⟨front, hfront⟩ := hescaped
    rw [h.last, ← hfront, List.getLast?_append]
    exact (by decide : escEsc ≠ esc)
  have hend : b ≠ endByte := by
    rcases hsecond with rfl | rfl <;> decide
  have hstep := h.step b
  have hwhole := length_step_total h.wholeTail b
  have hcut := length_step_total h.tail b
  have htotal := h.total
  rw [if_neg hend, State.growth, if_neg (fun hlast => hwholeLast hlast.1)] at hwhole
  rw [if_neg hend, State.growth, if_pos ⟨hcutLast, hsecond⟩] at hcut
  exact { hstep with total := by omega }

theorem totalLen_append (front back : List (List UInt8)) :
    totalLen (front ++ back) = totalLen front + totalLen back := by
  rw [totalLen, List.map_append, List.sum_append]
  rfl

theorem Lags.run (h : Lags sent whole cut wholeLen cutLen lost) (bytes : List UInt8) :
    Lags (sent ++ bytes) (whole.run bytes).1 (cut.run bytes).1
      (wholeLen + totalLen (whole.run bytes).2) (cutLen + totalLen (cut.run bytes).2) lost := by
  induction bytes generalizing sent whole cut wholeLen cutLen with
  | nil =>
    simp only [State.run, List.append_nil]
    exact h
  | cons b bytes ih =>
    have hrest := ih (h.step b)
    simp only [State.run, totalLen_append]
    rw [List.append_cons, ← Nat.add_assoc, ← Nat.add_assoc]
    exact hrest

/-- However the bytes are read, no more comes out than without a stop. -/
theorem Lags.readAll (h : Lags sent whole cut wholeLen cutLen lost) (reads : List (List UInt8)) :
    Lags (sent ++ reads.flatten) (whole.run reads.flatten).1
      (Slip.resume (Slip.readAll cut.body reads).1)
      (wholeLen + totalLen (whole.run reads.flatten).2)
      (cutLen + totalLen (Slip.readAll cut.body reads).2) lost := by
  induction reads generalizing sent whole cut wholeLen cutLen with
  | nil =>
    simp only [Slip.readAll, List.flatten_nil, State.run, List.append_nil]
    exact h.resume
  | cons read reads ih =>
    have hrest := ih (h.resume.run read)
    simp only [Slip.readAll, List.flatten_cons, run_append, totalLen_append]
    rw [← List.append_assoc, ← Nat.add_assoc, ← Nat.add_assoc]
    exact hrest

end Lags

theorem lags_start : Lags [] ⟨[], 0⟩ ⟨[], 0⟩ 0 0 0 :=
  ⟨rfl, fun h => absurd h (by decide), fun h => absurd h (by decide), fun h => absurd h (by decide),
    fun h => absurd h (by decide), le_refl _, le_refl _⟩

theorem readAll_append (body : List UInt8) (front back : List (List UInt8)) :
    readAll body (front ++ back) = ((readAll (readAll body front).1 back).1,
      (readAll body front).2 ++ (readAll (readAll body front).1 back).2) := by
  induction front generalizing body with
  | nil => rfl
  | cons read front ih =>
    rw [List.cons_append]
    simp only [readAll, ih, List.append_assoc]

theorem length_readAll_le (reads : List (List UInt8)) :
    (readAll [] reads).1.length ≤ ((State.mk [] 0).run reads.flatten).1.body.length :=
  (lags_start.readAll reads).body

/-- After a bad cut at least one byte is missing. -/
theorem lost_of_not_cutsWell {reads : List (List UInt8)} (hne : ∀ read ∈ reads, read ≠ [])
    (hbad : ¬ CutsWell reads) :
    totalLen (readAll [] reads).2 + (readAll [] reads).1.length <
      totalLen ((State.mk [] 0).run reads.flatten).2 +
        ((State.mk [] 0).run reads.flatten).1.body.length := by
  simp only [CutsWell, not_forall, not_not] at hbad
  obtain ⟨front, back, rfl, hbad⟩ := hbad
  cases back with
  | nil =>
    obtain ⟨-, hhead | hhead⟩ := hbad
    · cases hhead
    · cases hhead
  | cons read back =>
    have hread := hne read (List.mem_append_right _ List.mem_cons_self)
    cases read with
    | nil => exact absurd rfl hread
    | cons b bytes =>
      have hlags := (((lags_start.readAll front).step_bad (b := b) hbad).run bytes).readAll back
      have htotal := hlags.total
      simp only [List.flatten_append, List.flatten_cons, readAll_append, readAll, run_append,
        State.run, totalLen_append, List.cons_append]
      simp only [Slip.resume, Nat.zero_add] at htotal ⊢
      omega

/-- The frames come out exactly if every cut is good. -/
theorem readAll_eq_iff {reads : List (List UInt8)} (hne : ∀ read ∈ reads, read ≠ []) :
    readAll [] reads = (((State.mk [] 0).run reads.flatten).1.body,
      ((State.mk [] 0).run reads.flatten).2) ↔ CutsWell reads := by
  constructor
  · intro heq
    by_contra hbad
    have hlost := lost_of_not_cutsWell hne hbad
    rw [heq] at hlost
    exact lt_irrefl _ hlost
  · intro hwell
    apply readAll_eq tracks_start hne
    intro front back hreads
    rw [List.nil_append]
    exact hwell front back hreads

end SdkNrf.Slip
