import SdkNrf.Tnep.Tag

/-!
# Service selection

Which service is selected, how often it has been told so, and for which callback an answer is accepted.
-/

namespace SdkNrf.Tnep

def pendingNext (pending : Option Nat) : Entry → Option Nat
  | .called (.selected i) => some i
  | .called (.messageReceived i) => some i
  | .called _ => pending
  | .accepted _ => none

def pendingOf (log : List Entry) : Option Nat := log.foldl pendingNext none

@[simp] theorem pendingOf_append (log : List Entry) (e : Entry) :
    pendingOf (log ++ [e]) = pendingNext (pendingOf log) e := by
  simp [pendingOf]

def AnsweredOnce (log : List Entry) : Prop :=
  ∀ l a r, log = l ++ .accepted a :: r → ∃ i, a = some i ∧ pendingOf l = some i

theorem AnsweredOnce.append_called {log : List Entry} (h : AnsweredOnce log) (c : Callback) :
    AnsweredOnce (log ++ [.called c]) := by
  intro l a r heq
  rcases List.eq_nil_or_concat r with rfl | ⟨r', e, rfl⟩
  · have hlast := congrArg List.getLast? heq
    simp at hlast
  · rw [List.concat_eq_append, ← List.cons_append, ← List.append_assoc] at heq
    exact h l a r' (List.append_inj_left' heq rfl)

theorem AnsweredOnce.append_accepted {log : List Entry} (h : AnsweredOnce log) {i : Nat}
    (hi : pendingOf log = some i) : AnsweredOnce (log ++ [.accepted (some i)]) := by
  intro l a r heq
  rcases List.eq_nil_or_concat r with rfl | ⟨r', e, rfl⟩
  · obtain ⟨rfl, hlast⟩ := List.append_inj' heq rfl
    simp only [List.cons.injEq, Entry.accepted.injEq, and_true] at hlast
    exact ⟨i, hlast.symm, hi⟩
  · rw [List.concat_eq_append, ← List.cons_append, ← List.append_assoc] at heq
    exact h l a r' (List.append_inj_left' heq rfl)

def timesCalled (t : Tag) (c : Callback) : Nat := t.log.count (.called c)

structure Answerable (t : Tag) : Prop where
  once : AnsweredOnce t.log
  expected : t.appDataExpected = true → ∃ i, t.svcActive = some i ∧ pendingOf t.log = some i

structure SameCalls (t t' : Tag) : Prop where
  state : t'.state = t.state
  svcActive : t'.svcActive = t.svcActive
  times : ∀ c, timesCalled t' c = timesCalled t c

namespace Tag

variable {t : Tag} {env : Surroundings}

theorem txMsg_cases (t : Tag) :
    t.txMsg = .error (-EACCES) ∨ (t.state = .serviceSelected ∧ t.appDataExpected = true ∧
      t.txMsg = .ok { t with appDataExpected := false, log := t.log ++ [.accepted t.svcActive] }) := by
  rw [txMsg]
  split
  · exact Or.inl rfl
  · next hstate =>
    split
    · exact Or.inl rfl
    · next hexpected => exact Or.inr ⟨not_not.mp hstate, by simpa using hexpected, rfl⟩

theorem answer_cases (t : Tag) (a : Answer) :
    t.answer a = t ∨ (t.state = .serviceSelected ∧ t.appDataExpected = true ∧ t.answer a =
      { t with appDataExpected := false, log := t.log ++ [.accepted t.svcActive] }) := by
  cases a with
  | appData msg =>
    cases msg with
    | false => exact Or.inl rfl
    | true =>
      rcases t.txMsg_cases with herr | ⟨hstate, hexpected, hok⟩
      · exact Or.inl (by simp [answer, result, txMsgAppData, herr])
      · exact Or.inr ⟨hstate, hexpected, by simp [answer, result, txMsgAppData, hok]⟩
  | noAppData =>
    rcases t.txMsg_cases with herr | ⟨hstate, hexpected, hok⟩
    · exact Or.inl (by simp [answer, result, txMsgNoAppData, herr])
    · exact Or.inr ⟨hstate, hexpected, by simp [answer, result, txMsgNoAppData, hok]⟩

theorem answer_sameCalls (t : Tag) (a : Answer) : SameCalls t (t.answer a) := by
  rcases answer_cases t a with heq | ⟨-, -, heq⟩
  · rw [heq]
    exact ⟨rfl, rfl, fun _ => rfl⟩
  · rw [heq]
    exact ⟨rfl, rfl, fun c => by simp [timesCalled]⟩

theorem answer_answerable (h : Answerable t) (a : Answer) : Answerable (t.answer a) := by
  rcases answer_cases t a with heq | ⟨-, hexpected, heq⟩
  · rwa [heq]
  · obtain ⟨i, hi, hpending⟩ := h.expected hexpected
    rw [heq, hi]
    exact ⟨h.once.append_accepted hpending, fun hfalse => by cases hfalse⟩

theorem answers_sameCalls (t : Tag) (as : List Answer) : SameCalls t (as.foldl answer t) := by
  induction as generalizing t with
  | nil => exact ⟨rfl, rfl, fun _ => rfl⟩
  | cons a as ih =>
    have hfirst := answer_sameCalls t a
    have hrest := ih (t.answer a)
    exact ⟨hrest.state.trans hfirst.state, hrest.svcActive.trans hfirst.svcActive,
      fun c => (hrest.times c).trans (hfirst.times c)⟩

theorem answers_answerable (h : Answerable t) (as : List Answer) :
    Answerable (as.foldl answer t) := by
  induction as generalizing t with
  | nil => exact h
  | cons a as ih => exact ih (answer_answerable h a)

@[simp] theorem call_state (env : Surroundings) (t : Tag) (c : Callback) :
    (t.call env c).state = t.state := (answers_sameCalls _ _).state

@[simp] theorem call_svcActive (env : Surroundings) (t : Tag) (c : Callback) :
    (t.call env c).svcActive = t.svcActive := (answers_sameCalls _ _).svcActive

theorem call_times (env : Surroundings) (t : Tag) (c c' : Callback) :
    timesCalled (t.call env c) c' = timesCalled t c' + if c = c' then 1 else 0 := by
  rw [call, (answers_sameCalls _ _).times, timesCalled, timesCalled, List.count_append,
    List.count_singleton]
  by_cases hc : c = c' <;> simp [hc]

theorem call_answerable (c : Callback) (hlog : AnsweredOnce t.log)
    (hexpected : t.appDataExpected = true →
      ∃ i, t.svcActive = some i ∧ pendingNext (pendingOf t.log) (.called c) = some i) :
    Answerable (t.call env c) := by
  apply answers_answerable
  refine ⟨hlog.append_called c, fun h => ?_⟩
  rw [pendingOf_append]
  exact hexpected h

theorem answers_of_void {as : List Answer} (h : ∀ a ∈ as, a = .appData false) :
    as.foldl answer t = t := by
  induction as with
  | nil => rfl
  | cons a as ih =>
    rw [List.foldl_cons, h a (by simp)]
    exact ih fun b hb => h b (by simp [hb])

theorem call_of_void {c : Callback} (h : ∀ a ∈ env.app c, a = .appData false) :
    t.call env c = { t with log := t.log ++ [.called c] } := answers_of_void h

theorem callActive_of_some {i : Nat} (h : t.svcActive = some i) (c : Nat → Callback) :
    callActive env t c = t.call env (c i) := by
  simp [callActive, h]

theorem svcSelectFromMsg_cases (cfg : Config) (env : Surroundings) (t : Tag)
    (msg : Option (List NdefRecord)) :
    t.svcSelectFromMsg cfg env msg = (t, .parseError) ∨
      t.svcSelectFromMsg cfg env msg = (t, .notFound) ∨
      ∃ records ∈ msg, ∃ r ∈ records.find? fun r => r.type = recTypeSvcSelect,
        t.svcSelectFromMsg cfg env msg = t.svcSetActive cfg (uriOf cfg env r.payload) := by
  cases msg with
  | none => exact Or.inl rfl
  | some records =>
    cases hfind : records.find? fun r => r.type = recTypeSvcSelect with
    | none => exact Or.inr (Or.inl (by simp [svcSelectFromMsg, hfind]))
    | some r => exact Or.inr (Or.inr ⟨records, rfl, r, hfind, by simp [svcSelectFromMsg, hfind]⟩)

theorem svcSetActive_cases (cfg : Config) (t : Tag) (uri : List UInt8) :
    (∃ i, cfg.services.findIdx? (· = uri) = some i ∧
        t.svcSetActive cfg uri = ({ t with svcActive := some i }, .selected)) ∨
      (cfg.services.findIdx? (· = uri) = none ∧
        t.svcSetActive cfg uri = ({ t with svcActive := none }, .deselected)) := by
  cases hfind : cfg.services.findIdx? (· = uri) with
  | none => exact Or.inr ⟨rfl, by simp [svcSetActive, hfind]⟩
  | some i => exact Or.inl ⟨i, rfl, by simp [svcSetActive, hfind]⟩

end Tag

/-- A service is selected exactly in the state for it. It has been told so once more than that it is
not, every other service as often as that it is not, and the answers are those to its callbacks. -/
structure TagRight (t : Tag) : Prop where
  state : t.state = .serviceSelected ↔ t.svcActive.isSome
  callbacks : ∀ i, timesCalled t (.selected i) =
    timesCalled t (.deselected i) + if t.svcActive = some i then 1 else 0
  answers : AnsweredOnce t.log

structure TagInv (t : Tag) : Prop where
  right : TagRight t
  answerable : Answerable t

def namesOther (cfg : Config) (env : Surroundings) (msg : Option (List NdefRecord)) (i : Nat) : Prop :=
  ∃ records ∈ msg, ∃ r ∈ records.find? fun r => r.type = recTypeSvcSelect,
    cfg.services.findIdx? (· = Tag.uriOf cfg env r.payload) ≠ some i

instance (cfg : Config) (env : Surroundings) (msg : Option (List NdefRecord)) (i : Nat) :
    Decidable (namesOther cfg env msg i) := by
  unfold namesOther
  infer_instance

/-- The tag is not selected while a service is, and when an answer is still expected from a service,
the application gives none in the callback that tells it that another one is selected, or none. -/
def Undisturbed (cfg : Config) (t : Tag) : Event → Prop
  | .msgRxNew msg env => t.appDataExpected = true → ∀ i ∈ t.svcActive, namesOther cfg env msg i →
      ∀ a ∈ env.app (.deselected i), a = .appData false
  | .tagSelected _ => t.state ≠ .serviceSelected
  | .answer _ => True

instance (cfg : Config) (t : Tag) (e : Event) : Decidable (Undisturbed cfg t e) := by
  cases e <;> unfold Undisturbed <;> infer_instance

structure Settled (t : Tag) : Prop where
  equal : ∀ i, timesCalled t (.selected i) = timesCalled t (.deselected i)
  once : AnsweredOnce t.log

namespace TagInv

variable {t : Tag} {cfg : Config} {env : Surroundings}

theorem init : TagInv Tag.init :=
  ⟨⟨by decide, fun i => by simp [timesCalled, Tag.init], fun l a r h => by simp [Tag.init] at h⟩,
    fun l a r h => by simp [Tag.init] at h, fun h => by cases h⟩

theorem answer (h : TagInv t) (a : Answer) : TagInv (t.answer a) := by
  have hsame := Tag.answer_sameCalls t a
  have hanswerable := Tag.answer_answerable h.answerable a
  refine ⟨⟨?_, fun i => ?_, hanswerable.once⟩, hanswerable⟩
  · rw [hsame.state, hsame.svcActive]
    exact h.right.state
  · rw [hsame.times, hsame.times, hsame.svcActive]
    exact h.right.callbacks i

theorem call (h : TagRight t) {c : Callback} (hselected : ∀ i, c ≠ .selected i)
    (hdeselected : ∀ i, c ≠ .deselected i) (hanswerable : Answerable (t.call env c)) :
    TagInv (t.call env c) := by
  refine ⟨⟨?_, fun i => ?_, hanswerable.once⟩, hanswerable⟩
  · rw [Tag.call_state, Tag.call_svcActive]
    exact h.state
  · rw [Tag.call_times, Tag.call_times, if_neg (hselected i), if_neg (hdeselected i),
      Tag.call_svcActive]
    exact h.callbacks i

theorem errorCheck (h : TagInv t) (err : Int) : TagInv (t.errorCheck env err) := by
  rw [Tag.errorCheck]
  split
  · exact h
  · split
    · next i _ =>
      apply call h.right (fun _ => by simp) (fun _ => by simp)
      exact Tag.call_answerable _ h.answerable.once h.answerable.expected
    · exact h

theorem isSome_of_selected (h : TagInv t) (hstate : t.state = .serviceSelected) :
    ∃ i, t.svcActive = some i := Option.isSome_iff_exists.mp (h.right.state.mp hstate)

theorem svcActive_of_ready (h : TagInv t) (hstate : t.state = .serviceReady) : t.svcActive = none := by
  by_contra hsome
  have hselected := h.right.state.mpr (Option.isSome_iff_ne_none.mpr hsome)
  rw [hstate] at hselected
  cases hselected

theorem settled (h : TagInv t) (hactive : t.svcActive = none) : Settled t :=
  ⟨fun i => by simpa [hactive] using h.right.callbacks i, h.answerable.once⟩

/-- The active service is told the end of its selection; `active` is the service that is to come. -/
theorem callDeselected (h : TagInv t) {service : Nat} (hservice : t.svcActive = some service)
    {active : Option Nat} (hvoid : t.appDataExpected = true → active ≠ some service →
      ∀ a ∈ env.app (.deselected service), a = .appData false) :
    Settled (({ t with svcActive := active } : Tag).call env (.deselected service)) := by
  refine ⟨fun i => ?_, ?_⟩
  · have htimes := h.right.callbacks i
    rw [hservice] at htimes
    rw [Tag.call_times, Tag.call_times, if_neg (by simp), Nat.add_zero]
    simpa [timesCalled] using htimes
  · by_cases hsame : t.appDataExpected = true ∧ active ≠ some service
    · rw [Tag.call_of_void (hvoid hsame.1 hsame.2)]
      exact h.answerable.once.append_called _
    · refine (Tag.call_answerable (t := { t with svcActive := active }) _ h.answerable.once
        fun hexpected => ?_).once
      have hactive : active = some service := by simpa using fun hne => hsame ⟨hexpected, hne⟩
      obtain ⟨i, hi, hpending⟩ := h.answerable.expected hexpected
      exact ⟨i, hactive.trans (hservice.symm.trans hi), hpending⟩

theorem callSelected (h : Settled t) {i : Nat} (hactive : t.svcActive = some i)
    (hstate : t.state = .serviceSelected) :
    TagInv (Tag.callActive env { t with appDataExpected := true } .selected) := by
  have hcall : Tag.callActive env { t with appDataExpected := true } .selected =
      Tag.call env { t with appDataExpected := true } (.selected i) :=
    Tag.callActive_of_some (t := { t with appDataExpected := true }) hactive .selected
  rw [hcall]
  have hanswerable : Answerable (({ t with appDataExpected := true } : Tag).call env (.selected i)) :=
    Tag.call_answerable _ h.once fun _ => ⟨i, hactive, rfl⟩
  refine ⟨⟨?_, fun j => ?_, hanswerable.once⟩, hanswerable⟩
  · simp [hstate, hactive]
  · rw [Tag.call_times, Tag.call_times, if_neg (by simp : Callback.selected i ≠ .deselected j),
      Tag.call_svcActive]
    simpa [timesCalled, hactive] using h.equal j

theorem serviceReadyRx (h : TagInv t) (hstate : t.state = .serviceReady)
    (msg : Option (List NdefRecord)) : TagInv (t.serviceReadyRx cfg env msg) := by
  have hnone := h.svcActive_of_ready hstate
  rw [Tag.serviceReadyRx]
  apply errorCheck
  rcases Tag.svcSelectFromMsg_cases cfg env t msg with heq | heq | ⟨_, _, r, _, heq⟩
  · rw [heq]
    exact h
  · rw [heq]
    exact h
  · rw [heq]
    rcases Tag.svcSetActive_cases cfg t (Tag.uriOf cfg env r.payload) with
      ⟨i, _, hset⟩ | ⟨_, hset⟩
    · rw [hset]
      have hsettled : Settled { t with svcActive := some i, state := .serviceSelected } :=
        ⟨(h.settled hnone).equal, (h.settled hnone).once⟩
      exact callSelected hsettled rfl rfl
    · rw [hset, ← hnone]
      exact h

theorem serviceSelectedRx (h : TagInv t) (hstate : t.state = .serviceSelected)
    (msg : Option (List NdefRecord)) (hvoid : Undisturbed cfg t (.msgRxNew msg env)) :
    TagInv (t.serviceSelectedRx cfg env msg) := by
  obtain ⟨service, hservice⟩ := h.isSome_of_selected hstate
  simp only [Tag.serviceSelectedRx, hservice]
  apply errorCheck
  rcases Tag.svcSelectFromMsg_cases cfg env t msg with heq | heq | ⟨records, hrecords, r, hr, heq⟩
  · rw [heq]
    exact h
  · rw [heq]
    have hcall : Tag.callActive env { t with appDataExpected := true } .messageReceived =
        Tag.call env { t with appDataExpected := true } (.messageReceived service) :=
      Tag.callActive_of_some (t := { t with appDataExpected := true }) hservice .messageReceived
    simp only [Tag.serviceSelectedRxStatusProcess, hcall]
    have hright : TagRight { t with appDataExpected := true } :=
      ⟨h.right.state, h.right.callbacks, h.right.answers⟩
    apply call hright (fun _ => by simp) (fun _ => by simp)
    exact Tag.call_answerable _ h.answerable.once fun _ => ⟨service, hservice, rfl⟩
  · rw [heq]
    have hother (active : Option Nat)
        (hfind : cfg.services.findIdx? (· = Tag.uriOf cfg env r.payload) = active)
        (hexpected : t.appDataExpected = true) (hne : active ≠ some service) :=
      hvoid hexpected service hservice ⟨records, hrecords, r, hr, hfind ▸ hne⟩
    rcases Tag.svcSetActive_cases cfg t (Tag.uriOf cfg env r.payload) with
      ⟨i, hi, hset⟩ | ⟨hnone, hset⟩
    · rw [hset]
      have hsettled := callDeselected h hservice (hother _ hi)
      exact callSelected hsettled (Tag.call_svcActive _ _ _) ((Tag.call_state _ _ _).trans hstate)
    · rw [hset]
      have hsettled := callDeselected h hservice (hother _ hnone)
      refine ⟨⟨?_, fun i => ?_, hsettled.once⟩, hsettled.once, fun hfalse => by cases hfalse⟩
      · simp [Tag.serviceSelectedRxStatusProcess]
      · simpa [Tag.serviceSelectedRxStatusProcess, timesCalled] using hsettled.equal i

theorem step (h : TagInv t) (e : Event) (hguard : Undisturbed cfg t e) : TagInv (t.step cfg e) := by
  cases hstate : t.state with
  | disabled =>
    cases e with
    | msgRxNew => simpa [Tag.step, hstate] using h
    | tagSelected => simpa [Tag.step, hstate] using h
    | answer a => exact h.answer a
  | serviceReady =>
    cases e with
    | msgRxNew msg env => simpa [Tag.step, hstate] using h.serviceReadyRx hstate msg
    | tagSelected env => simpa [Tag.step, hstate] using h.errorCheck env.initialErr
    | answer a => exact h.answer a
  | serviceSelected =>
    cases e with
    | msgRxNew msg env => simpa [Tag.step, hstate] using h.serviceSelectedRx hstate msg hguard
    | tagSelected env => exact absurd hstate hguard
    | answer a => exact h.answer a

end TagInv

/-- In every undisturbed run a service is active when its callbacks say so, and no message is
answered twice. -/
theorem tnepTag_right {cfg : Config} {t : Tag}
    (ht : Reached (Tag.step cfg) (Undisturbed cfg) Tag.init t) : TagRight t := by
  have hstep (t : Tag) (e : Event) (h : TagInv t) (hguard : Undisturbed cfg t e) :
      TagInv (t.step cfg e) := h.step e hguard
  exact (ht.invariant TagInv.init hstep).right

def twoServices : Config := ⟨[[0x61], [0x62, 0x63]], 64⟩

def selectMsg (uri : List UInt8) : Option (List NdefRecord) :=
  some [⟨recTypeSvcSelect, UInt8.ofNat uri.length :: uri⟩]

def replying : Surroundings where
  app c := if c = .messageReceived 0 ∨ c = .messageReceived 1 then [.appData true] else []
  initialErr := 0
  behind _ := 0

def twoSelections : List Event :=
  [.tagSelected replying, .msgRxNew (selectMsg [0x61]) replying, .answer .noAppData,
    .msgRxNew (some []) replying, .msgRxNew none replying, .answer (.appData true),
    .msgRxNew (selectMsg [0x62, 0x63]) replying, .msgRxNew (some []) replying,
    .msgRxNew (selectMsg []) replying]

theorem twoSelections_right :
    TagRight (twoSelections.foldl (Tag.step twoServices) Tag.init) ∧
      (twoSelections.foldl (Tag.step twoServices) Tag.init).log =
        [.called (.selected 0), .accepted (some 0), .called (.messageReceived 0), .accepted (some 0),
          .called (.errorDetected 0 (-ENOTSUP)), .called (.deselected 0), .called (.selected 1),
          .called (.messageReceived 1), .accepted (some 1), .called (.deselected 1)] := by
  have hguarded : Reached.Guarded (Tag.step twoServices) (Undisturbed twoServices) Tag.init
      twoSelections := by decide
  exact ⟨tnepTag_right (Reached.run .start hguarded), by decide⟩

/-- Once the tag is selected again, the service is still active, but not in the state for it. -/
theorem selectedTwice_not_right :
    ∃ t, Reached (Tag.step twoServices) (fun _ _ => True) Tag.init t ∧ ¬ TagRight t := by
  let events : List Event := [.msgRxNew (selectMsg [0x61]) replying, .tagSelected replying]
  refine ⟨events.foldl (Tag.step twoServices) Tag.init, Reached.run .start ⟨trivial, trivial, trivial⟩,
    fun hright => ?_⟩
  have hselected := hright.state.mpr (by decide)
  exact absurd hselected (by decide)

end SdkNrf.Tnep
