import SdkNrf.Tnep.Poller

/-!
# Retries and reports

How often an empty file is read for an operation, and what is reported for it.
-/

namespace SdkNrf.TnepPoller

def Kind.state : Kind → State
  | .select => .selecting
  | .read => .reading
  | .write => .updating

def Kind.reports (cfg : Config) (svc : Option Nat) (status : Option UInt8) (timeout : Bool) :
    Kind → List Call
  | .select => if cfg.svcSelected then [.svcSelected svc status timeout] else []
  | .read => if cfg.svcReceived then [.svcReceived svc status timeout] else []
  | .write => if cfg.svcSent then [.svcSent svc status timeout] else []

def Operation.calls (op : Operation) (p : Poller) : List Call := p.calls.drop op.startCalls

def reachedTimeout (cfg : Config) (p : Poller) (empties : Nat) : Prop :=
  ∃ svc ∈ p.activeSvc, empties = 1 + (cfg.param svc).maxTimeExt.toNat

/-- Not more empty files are read than the active service may ask for. Until the end of the operation
nothing is reported, and then the operation is, as a timeout only after all these reads. -/
structure OperationRight (cfg : Config) (p : Poller) (op : Operation) : Prop where
  reads : op.empties = 0 ∨
    ∃ svc ∈ p.activeSvc, op.empties ≤ 1 + (cfg.param svc).maxTimeExt.toNat
  pending : p.inFlight ≠ none → op.calls p = []
  reported : p.inFlight = none → ∃ status timeout,
    op.calls p = op.kind.reports cfg p.activeSvc status timeout ∧
      (timeout = true → reachedTimeout cfg p op.empties)

structure PollerRight (cfg : Config) (r : Run) : Prop where
  faults : r.faults = []
  operation : ∀ op ∈ r.operation, OperationRight cfg r.poller op

def Buf.Usable (b : Buf) : Prop := b.data = true ∧ 1 ≤ b.size

instance (b : Buf) : Decidable b.Usable := inferInstanceAs (Decidable (_ ∧ _))

def Selectable (cfg : Config) (env : Surroundings) (svc : Nat) (maxNdefAreaSize : UInt32) : Prop :=
  (cfg.param svc).communicationMode = NFC_TNEP_COMM_MODE_SINGLE_RESPONSE ∧
    (cfg.param svc).maxSize.toNat ≤ maxNdefAreaSize.toNat ∧ env.prepareErr = 0 ∧ env.updateErr = 0

instance (cfg : Config) (env : Surroundings) (svc : Nat) (maxNdefAreaSize : UInt32) :
    Decidable (Selectable cfg env svc maxNdefAreaSize) := inferInstanceAs (Decidable (_ ∧ _))

/-- An operation is started when nothing is asked for, and only what is asked for is answered. -/
def InOrder (r : Run) : Event → Prop
  | .svcSelect .. | .svcDeselect _ | .svcRead .. | .svcWrite .. => r.poller.inFlight = none
  | .delayHandler _ => r.poller.inFlight = some .work
  | .onNdefRead .. => r.poller.inFlight = some .read
  | .onNdefWrite _ => r.poller.inFlight = some .update

instance (r : Run) (e : Event) : Decidable (InOrder r e) := by
  cases e <;> unfold InOrder <;> infer_instance

/-- An empty file is read for an active service. It is not reported as a timeout when the counter had
been left behind by an earlier one. -/
def FitEmpty (cfg : Config) (r : Run) : Prop :=
  ∃ svc ∈ r.poller.activeSvc, r.poller.retryCnt < (cfg.param svc).maxTimeExt.toNat ∨
    (cfg.param svc).maxTimeExt = 0 ∨ ∀ op ∈ r.operation, op.startRetry = 0

/-- An operation only fails after it has set the state when this is the state already. What is read is
empty or has a status record, and the delayed work and reading do not fail. -/
def Fit (cfg : Config) (r : Run) : Event → Prop
  | .svcSelect svcBuf svc maxNdefAreaSize env => env.submitErr = 0 ∧ (r.poller.state = .selecting ∨
      ∀ buf ∈ svcBuf, ∀ s ∈ svc, buf.Usable → r.poller.activeSvc ≠ some s →
        Selectable cfg env s maxNdefAreaSize)
  | .svcDeselect env => r.poller.state = .deselecting ∨ r.poller.activeSvc = none ∨
      env.prepareErr ≠ 0 ∨ env.updateErr = 0
  | .svcRead _ env => env.submitErr = 0
  | .svcWrite msg respBuf env => r.poller.state = .updating ∨
      ∀ recordCount ∈ msg, ∀ buf ∈ respBuf, 1 ≤ recordCount → buf.Usable →
        env.prepareErr = 0 ∧ env.updateErr = 0
  | .delayHandler readErr => readErr = 0
  | .onNdefRead none env => env.submitErr = 0 ∧ FitEmpty cfg r
  | .onNdefRead (some parsed) _ => (parsed.bind Poller.tnepDataAnalyze).isOk = true
  | .onNdefWrite env => env.submitErr = 0

def Undisturbed (cfg : Config) (r : Run) (e : Event) : Prop := InOrder r e ∧ Fit cfg r e

instance (cfg : Config) (r : Run) (e : Event) : Decidable (Undisturbed cfg r e) := by
  have hempty : Decidable (FitEmpty cfg r) := by
    unfold FitEmpty
    infer_instance
  have hfit : Decidable (Fit cfg r e) := by
    cases e with
    | onNdefRead data env => cases data <;> unfold Fit <;> infer_instance
    | _ => unfold Fit; infer_instance
  exact inferInstanceAs (Decidable (_ ∧ _))

structure Failed (p : Poller) (result : Poller × Int) : Prop where
  err : result.2 ≠ 0
  state : result.1.state = p.state
  activeSvc : result.1.activeSvc = p.activeSvc
  calls : result.1.calls = p.calls
  inFlight : result.1.inFlight = p.inFlight

structure Requested (p : Poller) (kind : Kind) (f : InFlight) (result : Poller × Int) : Prop where
  err : result.2 = 0
  state : result.1.state = kind.state
  retryCnt : result.1.retryCnt = p.retryCnt
  calls : result.1.calls = p.calls
  inFlight : result.1.inFlight = some f
  update : f = .update → kind ≠ .read ∧ (kind = .select → result.1.svcToSelect ≠ none)

namespace Poller

variable {cfg : Config} {env : Surroundings} {p : Poller}

theorem failed_self {err : Int} (herr : err ≠ 0) : Failed p (p, err) := ⟨herr, rfl, rfl, rfl, rfl⟩

theorem svcSelect_cases (svcBuf : Option Buf) (svc : Option Nat) (maxNdefAreaSize : UInt32)
    (hsubmit : env.submitErr = 0) (hfit : p.state = .selecting ∨ ∀ buf ∈ svcBuf, ∀ s ∈ svc,
      buf.Usable → p.activeSvc ≠ some s → Selectable cfg env s maxNdefAreaSize) :
    Failed p (p.svcSelect cfg env svcBuf svc maxNdefAreaSize) ∨
      ∃ f, Requested p .select f (p.svcSelect cfg env svcBuf svc maxNdefAreaSize) := by
  cases svcBuf with
  | none => exact Or.inl (failed_self (by decide))
  | some buf =>
    cases svc with
    | none => exact Or.inl (failed_self (by decide))
    | some svc =>
      dsimp only [svcSelect]
      split_ifs with hdata hsize hactive hmode harea hprepare
      · exact Or.inl (failed_self (by decide))
      · exact Or.inl (failed_self (by decide))
      · refine Or.inr ⟨.work, ?_⟩
        simp only [onSvcDelayedOperation, if_pos hsubmit]
        exact ⟨rfl, rfl, rfl, rfl, rfl, fun h => by cases h⟩
      all_goals
        have hselectable := hfit.imp id fun h => h buf rfl svc rfl
          ⟨by simpa using hdata, by omega⟩ (Ne.symm hactive)
      · have hstate := hselectable.resolve_right fun h => hmode h.1
        exact Or.inl ⟨by simp [ENOTSUP], hstate.symm, rfl, rfl, rfl⟩
      · have hstate := hselectable.resolve_right fun h => absurd h.2.1 (by omega)
        exact Or.inl ⟨by simp [ENOMEM], hstate.symm, rfl, rfl, rfl⟩
      · exact Or.inl ⟨hprepare, (hselectable.resolve_right fun h => hprepare h.2.2.1).symm, rfl, rfl, rfl⟩
      · rw [ndefUpdate]
        split_ifs with hupdate
        · exact Or.inr ⟨.update, rfl, rfl, rfl, rfl, rfl, fun _ => ⟨by decide, fun _ => by simp⟩⟩
        · have hstate := hselectable.resolve_right fun h => hupdate h.2.2.2
          exact Or.inl ⟨hupdate, hstate.symm, rfl, rfl, rfl⟩

theorem svcRead_cases (svcBuf : Option Buf) (hsubmit : env.submitErr = 0) :
    Failed p (p.svcRead cfg env svcBuf) ∨ ∃ f, Requested p .read f (p.svcRead cfg env svcBuf) := by
  cases svcBuf with
  | none => exact Or.inl (failed_self (by decide))
  | some buf =>
    rw [svcRead]
    split_ifs
    · exact Or.inl (failed_self (by decide))
    · exact Or.inl (failed_self (by decide))
    · refine Or.inr ⟨.work, ?_⟩
      simp only [onSvcDelayedOperation, if_pos hsubmit]
      exact ⟨rfl, rfl, rfl, rfl, rfl, fun h => by cases h⟩

theorem svcWrite_cases (msg : Option Nat) (respBuf : Option Buf) (hfit : p.state = .updating ∨
      ∀ recordCount ∈ msg, ∀ buf ∈ respBuf, 1 ≤ recordCount → buf.Usable →
        env.prepareErr = 0 ∧ env.updateErr = 0) :
    Failed p (p.svcWrite env msg respBuf) ∨ ∃ f, Requested p .write f (p.svcWrite env msg respBuf) := by
  cases msg with
  | none => exact Or.inl (failed_self (by decide))
  | some recordCount =>
    cases respBuf with
    | none => exact Or.inl (failed_self (by decide))
    | some buf =>
      dsimp only [svcWrite]
      split_ifs with hcount hdata hsize hprepare
      · exact Or.inl (failed_self (by decide))
      · exact Or.inl (failed_self (by decide))
      · exact Or.inl (failed_self (by decide))
      all_goals
        have hwritable := hfit.imp id fun h => h recordCount rfl buf rfl (by omega)
          ⟨by simpa using hdata, by omega⟩
      · exact Or.inl ⟨hprepare, (hwritable.resolve_right fun h => hprepare h.1).symm, rfl, rfl, rfl⟩
      · rw [ndefUpdate]
        split_ifs with hupdate
        · exact Or.inr ⟨.update, rfl, rfl, rfl, rfl, rfl, fun _ => ⟨by decide, fun h => by cases h⟩⟩
        · have hstate := hwritable.resolve_right fun h => hupdate h.2
          exact Or.inl ⟨hupdate, hstate.symm, rfl, rfl, rfl⟩

theorem call_eq (p : Poller) (given : Bool) (c : Call) :
    p.call given c = { p with calls := p.calls ++ if given then [c] else [] } := by
  cases given <;> simp [call]

theorem onNdefReadCb_of_state {kind : Kind} (hstate : p.state = kind.state) (status : Option UInt8)
    (timeout : Bool) : p.onNdefReadCb cfg status timeout =
      ({ p with calls := p.calls ++ kind.reports cfg p.activeSvc status timeout }, 0) := by
  simp only [onNdefReadCb, call_eq]
  cases kind <;> simp only [hstate, Kind.state, Kind.reports]

end Poller

/-- An operation that is not reported yet. The counter counts on from what it was at the start, and an
empty file that has been read was within what the active service may ask for. -/
structure Counting (cfg : Config) (p : Poller) (op : Operation) : Prop where
  state : p.state = op.kind.state
  calls : op.startCalls = p.calls.length
  retryCnt : p.retryCnt = op.startRetry + op.empties
  reads : op.empties = 0 ∨ ∃ svc ∈ p.activeSvc, p.retryCnt ≤ (cfg.param svc).maxTimeExt.toNat

/-- What is asked for is for the operation, before its first read where it is an update, or for the end
of the selection. -/
def Pending (cfg : Config) (r : Run) (f : InFlight) : Prop :=
  (r.operation = none ∧ r.poller.state = .deselecting ∧ f = .update) ∨
    ∃ op, r.operation = some op ∧ Counting cfg r.poller op ∧
      (f = .update → op.empties = 0 ∧ op.kind ≠ .read ∧
        (op.kind = .select → r.poller.svcToSelect ≠ none))

structure PollerInv (cfg : Config) (r : Run) : Prop where
  right : PollerRight cfg r
  pending : ∀ f ∈ r.poller.inFlight, Pending cfg r f

theorem Counting.operationRight {cfg : Config} {p : Poller} {op : Operation} (h : Counting cfg p op)
    (hinFlight : p.inFlight ≠ none) : OperationRight cfg p op := by
  refine ⟨h.reads.imp id ?_, fun _ => ?_, fun hnone => absurd hnone hinFlight⟩
  · rintro ⟨svc, hsvc, hle⟩
    have hretry := h.retryCnt
    exact ⟨svc, hsvc, by omega⟩
  · rw [Operation.calls, h.calls, List.drop_length]

namespace PollerInv

variable {cfg : Config} {env : Surroundings} {r : Run}

theorem init : PollerInv cfg Run.init :=
  ⟨⟨rfl, fun op hop => by cases hop⟩, fun f hf => by cases hf⟩

theorem of_counting {op : Operation} {f : InFlight} (hfaults : r.faults = [])
    (hoperation : r.operation = some op) (hinFlight : r.poller.inFlight = some f)
    (hcounting : Counting cfg r.poller op) (hupdate : f = .update → op.empties = 0 ∧ op.kind ≠ .read ∧
      (op.kind = .select → r.poller.svcToSelect ≠ none)) : PollerInv cfg r := by
  refine ⟨⟨hfaults, fun op' hop' => ?_⟩, fun f' hf' => ?_⟩
  · obtain rfl : op = op' := Option.some.inj (hoperation.symm.trans hop')
    exact hcounting.operationRight (by simp [hinFlight])
  · obtain rfl : f = f' := Option.some.inj (hinFlight.symm.trans hf')
    exact Or.inr ⟨op, hoperation, hcounting, hupdate⟩

theorem of_reported {op : Operation} (status : Option UInt8) (timeout : Bool)
    (hfaults : r.faults = []) (hoperation : r.operation = some op) (hinFlight : r.poller.inFlight = none)
    (hreads : op.empties = 0 ∨
      ∃ svc ∈ r.poller.activeSvc, op.empties ≤ 1 + (cfg.param svc).maxTimeExt.toNat)
    (hcalls : op.calls r.poller = op.kind.reports cfg r.poller.activeSvc status timeout)
    (htimeout : timeout = true → reachedTimeout cfg r.poller op.empties) : PollerInv cfg r := by
  refine ⟨⟨hfaults, fun op' hop' => ?_⟩, fun f hf => ?_⟩
  · obtain rfl : op = op' := Option.some.inj (hoperation.symm.trans hop')
    exact ⟨hreads, fun hne => absurd hinFlight hne, fun _ => ⟨status, timeout, hcalls, htimeout⟩⟩
  · rw [hinFlight] at hf
    cases hf

theorem failed (h : PollerInv cfg r) (hidle : r.poller.inFlight = none) (kind : Option Kind)
    {result : Poller × Int} (hresult : Failed r.poller result) : PollerInv cfg (r.started kind result) := by
  have hstarted : r.started kind result = ⟨result.1, r.operation, r.faults⟩ := by
    simp [Run.started, hresult.err, hresult.state, hresult.activeSvc]
  have hnone := hresult.inFlight.trans hidle
  rw [hstarted]
  refine ⟨⟨h.right.faults, fun op hop => ?_⟩, fun f hf => ?_⟩
  · have hop := h.right.operation op hop
    refine ⟨?_, fun hne => absurd hnone hne, fun _ => ?_⟩
    · simpa [hresult.activeSvc] using hop.reads
    · simpa [Operation.calls, reachedTimeout, hresult.calls, hresult.activeSvc] using hop.reported hidle
  · rw [hnone] at hf
    cases hf

theorem requested (h : PollerInv cfg r) {kind : Kind} {f : InFlight} {result : Poller × Int}
    (hresult : Requested r.poller kind f result) : PollerInv cfg (r.started (some kind) result) := by
  have hstarted : r.started (some kind) result =
      ⟨result.1, some ⟨kind, r.poller.retryCnt, r.poller.calls.length, 0⟩, r.faults⟩ := by
    simp [Run.started, hresult.err]
  rw [hstarted]
  apply of_counting (f := f)
  · exact h.right.faults
  · rfl
  · exact hresult.inFlight
  · exact ⟨hresult.state, by rw [hresult.calls], hresult.retryCnt, Or.inl rfl⟩
  · exact fun hf => ⟨rfl, hresult.update hf⟩

theorem svcDeselect (h : PollerInv cfg r) (hidle : r.poller.inFlight = none)
    (hfit : Fit cfg r (.svcDeselect env)) :
    PollerInv cfg (r.started none (r.poller.svcDeselect env)) := by
  rw [Poller.svcDeselect]
  split_ifs with hactive hprepare
  · exact ⟨⟨h.right.faults, fun op hop => by cases hop⟩, fun f hf => absurd hf (by simp [Run.started, hidle])⟩
  · exact h.failed hidle none (Poller.failed_self hprepare)
  · rw [Poller.ndefUpdate]
    split_ifs with hupdate
    · refine ⟨⟨h.right.faults, fun op hop => by cases hop⟩, fun f hf => ?_⟩
      exact Or.inl ⟨rfl, rfl, (Option.some.inj hf).symm⟩
    · have hstate : r.poller.state = .deselecting :=
        hfit.resolve_right fun h => h.elim hactive fun h => h.elim hprepare hupdate
      exact h.failed hidle none ⟨hupdate, hstate.symm, rfl, rfl, rfl⟩

theorem counting_of_ne_update (h : PollerInv cfg r) {f : InFlight} (hf : r.poller.inFlight = some f)
    (hne : f ≠ .update) : ∃ op, r.operation = some op ∧ Counting cfg r.poller op := by
  rcases h.pending f hf with ⟨-, -, hupdate⟩ | ⟨op, hop, hcounting, -⟩
  · exact absurd hupdate hne
  · exact ⟨op, hop, hcounting⟩

theorem delayHandler (h : PollerInv cfg r) (hwork : r.poller.inFlight = some .work) :
    PollerInv cfg (r.step cfg (.delayHandler 0)) := by
  obtain ⟨op, hop, hcounting⟩ := h.counting_of_ne_update hwork (by decide)
  have hstep : r.step cfg (.delayHandler 0) =
      { r with poller := { r.poller with inFlight := some .read } } := by
    have hstate := hcounting.state
    cases hkind : op.kind <;> simp [hkind, Kind.state] at hstate <;>
      simp [Run.step, Run.answered, Poller.tnepDelayHandler, hstate]
  rw [hstep]
  exact of_counting h.right.faults hop rfl
    ⟨hcounting.state, hcounting.calls, hcounting.retryCnt, hcounting.reads⟩ (fun hf => by cases hf)

theorem retry (h : PollerInv cfg r) {op : Operation} {svc : Nat}
    (hcounting : Counting cfg r.poller op) (hsvc : r.poller.activeSvc = some svc)
    (hlt : r.poller.retryCnt < (cfg.param svc).maxTimeExt.toNat) :
    PollerInv cfg ⟨{ r.poller with retryCnt := r.poller.retryCnt + 1, inFlight := some .work },
      some { op with empties := op.empties + 1 }, r.faults⟩ := by
  have hretry := hcounting.retryCnt
  apply of_counting (f := .work)
  · exact h.right.faults
  · rfl
  · rfl
  · exact ⟨hcounting.state, hcounting.calls, by simp [hretry, Nat.add_assoc], Or.inr ⟨svc, hsvc, hlt⟩⟩
  · exact fun hf => by cases hf

theorem timeout (h : PollerInv cfg r) {op : Operation} {svc : Nat}
    (hcounting : Counting cfg r.poller op) (hsvc : r.poller.activeSvc = some svc)
    (hge : ¬ r.poller.retryCnt < (cfg.param svc).maxTimeExt.toNat)
    (hstart : (cfg.param svc).maxTimeExt = 0 ∨ op.startRetry = 0) :
    PollerInv cfg ⟨{ r.poller with
        inFlight := none
        calls := r.poller.calls ++ op.kind.reports cfg r.poller.activeSvc none true },
      some { op with empties := op.empties + 1 }, r.faults⟩ := by
  have hretry := hcounting.retryCnt
  have hempties : op.empties + 1 = 1 + (cfg.param svc).maxTimeExt.toNat := by
    have hreads : op.empties = 0 ∨ r.poller.retryCnt ≤ (cfg.param svc).maxTimeExt.toNat := by
      simpa [hsvc] using hcounting.reads
    rcases hstart with hzero | hzero
    · simp only [hzero, UInt8.toNat_zero] at hreads ⊢
      omega
    · omega
  apply of_reported none true
  · exact h.right.faults
  · rfl
  · rfl
  · exact Or.inr ⟨svc, hsvc, hempties.le⟩
  · simp [Operation.calls, hcounting.calls]
  · exact fun _ => ⟨svc, hsvc, hempties⟩

theorem onNdefRead_empty (h : PollerInv cfg r) (hread : r.poller.inFlight = some .read)
    (hsubmit : env.submitErr = 0) (hfit : FitEmpty cfg r) :
    PollerInv cfg (r.step cfg (.onNdefRead none env)) := by
  obtain ⟨op, hop, hcounting⟩ := h.counting_of_ne_update hread (by decide)
  obtain ⟨svc, hsvc, hcase⟩ := hfit
  replace hsvc : r.poller.activeSvc = some svc := hsvc
  by_cases hlt : r.poller.retryCnt < (cfg.param svc).maxTimeExt.toNat
  · have hstep : r.step cfg (.onNdefRead none env) =
        ⟨{ r.poller with retryCnt := r.poller.retryCnt + 1, inFlight := some .work },
          some { op with empties := op.empties + 1 }, r.faults⟩ := by
      simp [Run.step, Run.answered, Run.indicated, Run.counted, Poller.onNdefRead,
        Poller.onSvcDelayedOperation, hsubmit, hsvc, hlt, hop]
    rw [hstep]
    exact h.retry hcounting hsvc hlt
  · have hreports : (Run.answered r.poller).onNdefReadCb cfg none true = _ :=
      Poller.onNdefReadCb_of_state (p := Run.answered r.poller) hcounting.state none true
    have hstep : r.step cfg (.onNdefRead none env) =
        ⟨{ r.poller with
            inFlight := none
            calls := r.poller.calls ++ op.kind.reports cfg r.poller.activeSvc none true },
          some { op with empties := op.empties + 1 }, r.faults⟩ := by
      simp only [Run.step, Option.isNone_none, if_true, Poller.onNdefRead]
      simp [Run.answered, Run.indicated, Run.counted, hsvc, hlt, hop]
      simpa [Run.answered, hsvc] using congrArg Prod.fst hreports
    rw [hstep]
    exact h.timeout hcounting hsvc hlt ((hcase.resolve_left hlt).imp id fun hall => hall op hop)

theorem onNdefRead_message (h : PollerInv cfg r) (hread : r.poller.inFlight = some .read)
    {parsed : Except Int (List NdefRecord)} (hok : (parsed.bind Poller.tnepDataAnalyze).isOk = true) :
    PollerInv cfg (r.step cfg (.onNdefRead (some parsed) env)) := by
  obtain ⟨op, hop, hcounting⟩ := h.counting_of_ne_update hread (by decide)
  cases hstatus : parsed.bind Poller.tnepDataAnalyze with
  | error err =>
    rw [hstatus] at hok
    cases hok
  | ok status =>
    have hreports : ({ Run.answered r.poller with retryCnt := 0 } : Poller).onNdefReadCb cfg (some status)
        false = _ :=
      Poller.onNdefReadCb_of_state (p := { Run.answered r.poller with retryCnt := 0 }) hcounting.state
        (some status) false
    have hstep : r.step cfg (.onNdefRead (some parsed) env) =
        ⟨{ r.poller with
            retryCnt := 0
            inFlight := none
            calls := r.poller.calls ++ op.kind.reports cfg r.poller.activeSvc (some status) false },
          some op, r.faults⟩ := by
      simp only [Run.step, Option.isNone_some, Poller.onNdefRead, hstatus]
      simp [Run.answered, Run.indicated, hop]
      simpa [Run.answered] using congrArg Prod.fst hreports
    rw [hstep]
    apply of_reported (some status) false
    · exact h.right.faults
    · rfl
    · rfl
    · refine hcounting.reads.imp id ?_
      rintro ⟨svc, hsvc, hle⟩
      have hretry := hcounting.retryCnt
      exact ⟨svc, hsvc, by omega⟩
    · simp [Operation.calls, hcounting.calls]
    · exact fun hfalse => by cases hfalse

theorem onNdefWrite (h : PollerInv cfg r) (hinFlight : r.poller.inFlight = some .update)
    (hsubmit : env.submitErr = 0) : PollerInv cfg (r.step cfg (.onNdefWrite env)) := by
  rcases h.pending _ hinFlight with ⟨hop, hstate, -⟩ | ⟨op, hop, hcounting, hupdate⟩
  · have hstep : r.step cfg (.onNdefWrite env) = ⟨{ r.poller with
        state := .idle
        activeSvc := none
        inFlight := none
        calls := r.poller.calls ++ if cfg.svcDeselected then [.svcDeselected] else [] },
          none, r.faults⟩ := by
      simp [Run.step, Run.answered, Run.indicated, Poller.onNdefWrite, hstate, hop, Poller.call_eq]
    rw [hstep]
    exact ⟨⟨h.right.faults, fun op hop => by cases hop⟩, fun f hf => by cases hf⟩
  · obtain ⟨hempties, hread, hselect⟩ := hupdate rfl
    have hstate := hcounting.state
    cases hkind : op.kind with
    | select =>
      obtain ⟨svc, hsvc⟩ := Option.ne_none_iff_exists'.mp (hselect hkind)
      have hstep : r.step cfg (.onNdefWrite env) = ⟨{ r.poller with
          activeSvc := some svc
          svcToSelect := none
          inFlight := some .work }, some op, r.faults⟩ := by
        simp [Run.step, Run.answered, Run.indicated, Poller.onNdefWrite, hstate, hkind, Kind.state, hsvc,
          Poller.onSvcDelayedOperation, hsubmit, hop]
      rw [hstep]
      apply of_counting (f := .work)
      · exact h.right.faults
      · rfl
      · rfl
      · exact ⟨hcounting.state, hcounting.calls, hcounting.retryCnt, Or.inl hempties⟩
      · exact fun hf => by cases hf
    | read => exact absurd hkind hread
    | write =>
      have hstep : r.step cfg (.onNdefWrite env) =
          ⟨{ r.poller with inFlight := some .work }, some op, r.faults⟩ := by
        simp [Run.step, Run.answered, Run.indicated, Poller.onNdefWrite, hstate, hkind, Kind.state,
          Poller.onSvcDelayedOperation, hsubmit, hop]
      rw [hstep]
      apply of_counting (f := .work)
      · exact h.right.faults
      · rfl
      · rfl
      · exact ⟨hcounting.state, hcounting.calls, hcounting.retryCnt, Or.inl hempties⟩
      · exact fun hf => by cases hf

theorem step (h : PollerInv cfg r) (e : Event) (hguard : Undisturbed cfg r e) :
    PollerInv cfg (r.step cfg e) := by
  obtain ⟨horder, hfit⟩ := hguard
  cases e with
  | svcSelect svcBuf svc maxNdefAreaSize env =>
    rcases Poller.svcSelect_cases svcBuf svc maxNdefAreaSize hfit.1 hfit.2 with hfailed | ⟨f, hrequested⟩
    · exact h.failed horder _ hfailed
    · exact h.requested hrequested
  | svcDeselect env => exact h.svcDeselect horder hfit
  | svcRead svcBuf env =>
    rcases Poller.svcRead_cases svcBuf hfit with hfailed | ⟨f, hrequested⟩
    · exact h.failed horder _ hfailed
    · exact h.requested hrequested
  | svcWrite msg respBuf env =>
    rcases Poller.svcWrite_cases msg respBuf hfit with hfailed | ⟨f, hrequested⟩
    · exact h.failed horder _ hfailed
    · exact h.requested hrequested
  | delayHandler readErr =>
    obtain rfl : readErr = 0 := hfit
    exact h.delayHandler horder
  | onNdefRead data env =>
    cases data with
    | none => exact h.onNdefRead_empty horder hfit.1 hfit.2
    | some parsed => exact h.onNdefRead_message horder hfit
  | onNdefWrite env => exact h.onNdefWrite horder hfit

end PollerInv

/-- In every undisturbed run each operation is reported once, as a timeout only after all its reads. -/
theorem tnepPoller_right {cfg : Config} {r : Run}
    (hr : Reached (Run.step cfg) (Undisturbed cfg) Run.init r) : PollerRight cfg r := by
  have hstep (r : Run) (e : Event) (h : PollerInv cfg r) (hguard : Undisturbed cfg r e) :
      PollerInv cfg (r.step cfg e) := h.step e hguard
  exact (hr.invariant PollerInv.init hstep).right

def twoServices : Config where
  param i := ⟨NFC_TNEP_COMM_MODE_SINGLE_RESPONSE, if i = 0 then 1 else 2, 100⟩
  svcSelected := true
  svcReceived := true
  svcSent := true
  svcDeselected := true
  error := true

def calm : Surroundings := ⟨0, 0, 0⟩

def statusMsg (status : UInt8) : Option (Except Int (List NdefRecord)) :=
  some (.ok [⟨2, fun i => if i = 0 then 0x54 else 0x65, [status]⟩])

def writeAndRead : List Event :=
  [.svcSelect (some ⟨true, 16⟩) (some 0) 128 calm, .onNdefWrite calm, .delayHandler 0,
    .onNdefRead none calm, .delayHandler 0, .onNdefRead (statusMsg 0) calm,
    .svcWrite (some 1) (some ⟨true, 16⟩) calm, .onNdefWrite calm, .delayHandler 0,
    .onNdefRead (statusMsg 0) calm, .svcWrite (some 0) (some ⟨true, 16⟩) calm,
    .svcRead (some ⟨true, 16⟩) calm, .delayHandler 0, .onNdefRead none calm, .delayHandler 0,
    .onNdefRead none calm, .svcDeselect calm, .onNdefWrite calm,
    .svcSelect (some ⟨true, 16⟩) (some 1) 128 calm, .onNdefWrite calm, .delayHandler 0,
    .onNdefRead none calm, .delayHandler 0, .onNdefRead (statusMsg 1) calm]

theorem writeAndRead_right :
    PollerRight twoServices (writeAndRead.foldl (Run.step twoServices) Run.init) ∧
      (writeAndRead.foldl (Run.step twoServices) Run.init).poller.calls =
        [.svcSelected (some 0) (some 0) false, .svcSent (some 0) (some 0) false,
          .svcReceived (some 0) none true, .svcDeselected, .svcSelected (some 1) (some 1) false] := by
  have hguarded : Reached.Guarded (Run.step twoServices) (Undisturbed twoServices) Run.init
      writeAndRead := by decide
  exact ⟨tnepPoller_right (Reached.run .start hguarded), by decide⟩

def timedOutTwice : List Event :=
  [.svcSelect (some ⟨true, 16⟩) (some 0) 128 calm, .onNdefWrite calm, .delayHandler 0,
    .onNdefRead none calm, .delayHandler 0, .onNdefRead none calm, .svcDeselect calm,
    .onNdefWrite calm, .svcSelect (some ⟨true, 16⟩) (some 0) 128 calm, .onNdefWrite calm,
    .delayHandler 0, .onNdefRead none calm]

/-- The second timeout is reported after one read instead of two. -/
theorem timedOutTwice_not_right :
    ∃ r, Reached (Run.step twoServices) InOrder Run.init r ∧ ¬ PollerRight twoServices r := by
  have hguarded : Reached.Guarded (Run.step twoServices) InOrder Run.init timedOutTwice := by
    decide
  have hrun : timedOutTwice.foldl (Run.step twoServices) Run.init =
      ⟨⟨.selecting, none, some 0, 1, none, [.svcSelected (some 0) none true, .svcDeselected,
        .svcSelected (some 0) none true]⟩, some ⟨.select, 1, 2, 1⟩, []⟩ := by decide
  refine ⟨_, Reached.run .start hguarded, fun hright => ?_⟩
  rw [hrun] at hright
  obtain ⟨status, timeout, hcalls, htimeout⟩ := (hright.operation _ rfl).reported rfl
  cases timeout with
  | false => simp [Operation.calls, Kind.reports, twoServices] at hcalls
  | true =>
    obtain ⟨svc, hsvc, hempties⟩ := htimeout rfl
    obtain rfl : 0 = svc := Option.some.inj hsvc
    exact absurd hempties (by decide)

end SdkNrf.TnepPoller
