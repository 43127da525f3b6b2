import SdkNrf.Isodep.Chunking

/-!
# Errors and the transfer state

A call that is refused leaves everything as it is, in particular a transfer that is going on.
-/

namespace SdkNrf.Isodep

/-- The arguments that `nfc_t4t_isodep_rats_send` checks after it has entered the transfer state: the
DID, and the FSD against the Tx buffer. -/
def Call.BadArguments (env : Env) (s : T4tIsodep) : Call → Prop
  | .ratsSend fsd did =>
    (s.state = .initialized ∨ s.state = .selected) ∧
      (did > 14 ∨ s.txData.bufSize < fsdValueMap env fsd)
  | _ => False

/-- The calls that start the error recovery: a timeout, or data received with an error. -/
def Call.Recovers : Call → Prop
  | .onTimeout => True
  | .dataReceived _ _ err _ => err = true
  | _ => False

variable {env : Env} {s : T4tIsodep}

variable {err : Err}

theorem ratsSend_refused {fsd : Nat} {did : UInt8} (herr : (s.ratsSend env fsd did).err = some err)
    (hargs : ¬ (Call.ratsSend fsd did).BadArguments env s) :
    s.ratsSend env fsd did = ⟨s, [], some .EACCES⟩ := by
  unfold T4tIsodep.ratsSend at herr ⊢
  unfold Call.BadArguments at hargs
  split at herr
  next hstate =>
    rw [not_and, not_or] at hargs
    obtain ⟨hdid, hfsd⟩ := hargs hstate
    dsimp only at herr
    rw [if_neg hdid, if_neg hfsd] at herr
    cases herr
  next hstate => rw [if_neg hstate]

theorem tagDeselect_refused (herr : (s.tagDeselect env).err = some err) :
    s.tagDeselect env = ⟨s, [], some .EACCES⟩ := by
  unfold T4tIsodep.tagDeselect at herr ⊢
  split at herr
  · cases herr
  next hstate => rw [if_neg hstate]

variable {data : Option Memory} {len : Nat} {now : Int}

theorem transmit_refused (herr : (s.transmit env data len now).err = some err) (hwork : err ≠ .work) :
    s.transmit env data len now = ⟨s, [], some err⟩ := by
  have htransmitted := s.transmit_transmitted env data len now
  generalize s.transmit env data len now = o at htransmitted herr
  cases htransmitted with
  | refused err' =>
    rw [Option.some.injEq] at herr
    rw [herr]
  | delayed bytes time pending fails delay =>
    dsimp only at herr
    split at herr
    · rw [Option.some.injEq] at herr
      exact absurd herr.symm hwork
    · cases herr
  | sent => cases herr

theorem reportErr_err (o : Outcome) : (T4tIsodep.reportErr env o).err = none := by
  unfold T4tIsodep.reportErr
  split
  next h => exact h
  next => rfl

/-- `nfc_t4t_isodep_data_received` returns an error code only for its arguments. -/
theorem dataReceived_refused {rxErr : Bool}
    (herr : (s.dataReceived env data len rxErr now).err = some err) :
    s.dataReceived env data len rxErr now = ⟨s, [], some err⟩ := by
  unfold T4tIsodep.dataReceived at herr ⊢
  cases data with
  | none =>
    cases herr
    rfl
  | some data =>
    dsimp only at herr ⊢
    split at herr
    next hlen =>
      cases herr
      rw [if_pos hlen]
    next hlen =>
      split at herr
      · cases herr
      · split at herr <;> rw [reportErr_err] at herr <;> cases herr

/-- A call that returns an error code was refused, apart from the arguments of RATS and a work queue
that takes no work. -/
theorem run_refused {c : Call} (herr : (c.run env s).err = some err) (hwork : err ≠ .work)
    (hargs : ¬ c.BadArguments env s) :
    (c.run env s).state = s ∧ (c.run env s).outputs = [] := by
  cases c with
  | ratsSend fsd did =>
    simp only [Call.run, ratsSend_refused herr hargs, and_self]
  | tagDeselect => simp only [Call.run, tagDeselect_refused herr, and_self]
  | transmit data len now => simp only [Call.run, transmit_refused herr hwork, and_self]
  | dataReceived data len rxErr now => simp only [Call.run, dataReceived_refused herr, and_self]
  | onTimeout => cases herr
  | delayHandler => cases herr

theorem not_error_mem_callback {registered : Bool} {output : Output} (h : output ≠ .error err) :
    .error err ∉ callback registered output := by
  unfold callback
  split
  · intro hmem
    exact h (List.mem_singleton.mp hmem).symm
  · exact List.not_mem_nil

theorem errorHandle_reported {timeout : Bool} (h : .error err ∈ (s.errorHandle env timeout).2) :
    (s.errorHandle env timeout).1.state = .initialized ∧
      (s.errorHandle env timeout).1.errStatus.lastFrame = .none := by
  unfold T4tIsodep.errorHandle at h ⊢
  dsimp only at h ⊢
  split at h
  next hend =>
    rw [if_pos hend]
    exact ⟨rfl, rfl⟩
  next hend =>
    exfalso
    unfold T4tIsodep.recoverySend at h
    split at h
    case h_6 => cases h
    all_goals exact not_error_mem_callback (fun hne => by cases hne) h

theorem Handled.no_error {o : Outcome} (h : Handled env s o) (err : Err) :
    .error err ∉ o.outputs := by
  cases h with
  | failed => exact List.not_mem_nil
  | unsent => exact List.not_mem_nil
  | retransmitted =>
    intro hmem
    cases List.mem_singleton.mp hmem
  | deselected => exact not_error_mem_callback (fun hne => by cases hne)
  | wtx => exact not_error_mem_callback (fun hne => by cases hne)
  | nextChunk => exact not_error_mem_callback (fun hne => by cases hne)
  | chained => exact not_error_mem_callback (fun hne => by cases hne)
  | completed => exact not_error_mem_callback (fun hne => by cases hne)

theorem atsParse_no_error {data : Memory} (err : Err) :
    .error err ∉ (s.atsParse env data len now).outputs := by
  unfold T4tIsodep.atsParse
  dsimp only
  split
  · exact List.not_mem_nil
  · split
    · exact List.not_mem_nil
    · exact not_error_mem_callback (fun hne => by cases hne)

theorem reportErr_cleared {o : Outcome} (ho : ∀ err, .error err ∉ o.outputs)
    (h : .error err ∈ (T4tIsodep.reportErr env o).outputs) :
    (T4tIsodep.reportErr env o).state.errStatus.lastFrame = .none := by
  unfold T4tIsodep.reportErr at h ⊢
  split at h
  next hnone => exact absurd h (ho err)
  next err' hsome => rfl

theorem dataReceived_cleared {rxErr : Bool}
    (h : .error err ∈ (s.dataReceived env data len rxErr now).outputs) :
    (s.dataReceived env data len rxErr now).state.errStatus.lastFrame = .none := by
  unfold T4tIsodep.dataReceived at h ⊢
  cases data with
  | none => cases h
  | some data =>
    dsimp only at h ⊢
    split at h
    · cases h
    next hlen =>
      rw [if_neg hlen]
      split at h
      next hrx =>
        rw [if_pos hrx]
        exact (errorHandle_reported h).2
      next hrx =>
        rw [if_neg hrx]
        split at h
        next hats =>
          rw [if_pos hats]
          exact reportErr_cleared atsParse_no_error h
        next hats =>
          rw [if_neg hats]
          exact reportErr_cleared (s.frameHandle_handled env data len).no_error h

theorem transmit_no_error (err : Err) :
    .error err ∉ (s.transmit env data len now).outputs := by
  have htransmitted := s.transmit_transmitted env data len now
  generalize s.transmit env data len now = o at htransmitted
  cases htransmitted with
  | refused => exact List.not_mem_nil
  | delayed =>
    intro hmem
    cases List.mem_singleton.mp hmem
  | sent => exact not_error_mem_callback (fun hne => by cases hne)

theorem run_cleared {c : Call} (h : .error err ∈ (c.run env s).outputs) :
    (c.run env s).state.errStatus.lastFrame = .none := by
  cases c with
  | ratsSend fsd did =>
    exfalso
    simp only [Call.run, T4tIsodep.ratsSend] at h
    split at h
    · split at h
      · cases h
      · split at h
        · cases h
        · exact not_error_mem_callback (fun hne => by cases hne) h
    · cases h
  | tagDeselect =>
    exfalso
    simp only [Call.run, T4tIsodep.tagDeselect] at h
    split at h
    · exact not_error_mem_callback (fun hne => by cases hne) h
    · cases h
  | transmit data len now => exact absurd h (transmit_no_error err)
  | dataReceived data len rxErr now => exact dataReceived_cleared h
  | onTimeout => exact (errorHandle_reported h).2
  | delayHandler => exact absurd h (not_error_mem_callback (fun hne => by cases hne))

theorem Call.Recovers.initialized {c : Call} (hc : c.Recovers)
    (h : .error err ∈ (c.run env s).outputs) : (c.run env s).state.state = .initialized := by
  cases c with
  | onTimeout => exact (errorHandle_reported h).1
  | dataReceived data len rxErr now =>
    have hrx : rxErr = true := hc
    simp only [Call.run, T4tIsodep.dataReceived] at h ⊢
    cases data with
    | none => cases h
    | some data =>
      dsimp only at h ⊢
      split at h
      · cases h
      next hlen =>
        subst hrx
        rw [if_neg hlen, if_pos rfl]
        exact (errorHandle_reported h).1
  | ratsSend | tagDeselect | transmit | delayHandler => exact hc.elim

theorem onTimeout_initialized (h : s.errStatus.lastFrame = .none) :
    (s.onTimeout env).state.state = .initialized := by
  unfold T4tIsodep.onTimeout T4tIsodep.errorHandle
  dsimp only
  rw [if_pos (Or.inl h)]
  rfl

theorem ratsSend_accepted {fsd : Nat} {did : UInt8} (hstate : s.state = .initialized)
    (hdid : did ≤ 14) (hfsd : fsdValueMap env fsd ≤ s.txData.bufSize) :
    (s.ratsSend env fsd did).err = none := by
  unfold T4tIsodep.ratsSend
  rw [if_pos (Or.inl hstate)]
  dsimp only
  rw [if_neg (by simpa using hdid), if_neg (Nat.not_lt.mpr hfsd)]

/-- A call that returns an error code leaves the state as it is, so that a transfer is going on
afterwards only if one was going on before. A call of the error recovery that reports an error ends
in the initial state, in which RATS is accepted, and every other error that is reported leads there
with the next timeout. -/
theorem run_error (env : Env) (s : T4tIsodep) (c : Call) :
    (∀ err, (c.run env s).err = some err → err ≠ .work → ¬ c.BadArguments env s →
      (c.run env s).state = s ∧ (c.run env s).outputs = []) ∧
    (c.Recovers → ∀ err, .error err ∈ (c.run env s).outputs →
      (c.run env s).state.state = .initialized ∧
        ∀ fsd did, did ≤ 14 → fsdValueMap env fsd ≤ (c.run env s).state.txData.bufSize →
          ((c.run env s).state.ratsSend env fsd did).err = none) ∧
    (∀ err, .error err ∈ (c.run env s).outputs →
      ((c.run env s).state.onTimeout env).state.state = .initialized) := by
  refine ⟨fun err herr hwork hargs => run_refused herr hwork hargs, ?_, ?_⟩
  · intro hc err h
    have hstate := hc.initialized h
    exact ⟨hstate, fun fsd did hdid hfsd => ratsSend_accepted hstate hdid hfsd⟩
  · intro err h
    exact onTimeout_initialized (run_cleared h)

def transferState : T4tIsodep :=
  (Call.run defaultEnv selectedState (.transmit (some (List.replicate 30 0x55)) 30 1000)).state

theorem transferState_reachable : Reachable defaultEnv transferState :=
  .call selectedState_reachable (.transmit (some (List.replicate 30 0x55)) 30 1000) trivial

theorem transferState_error :
    (Call.run defaultEnv transferState (.transmit (some [0x55]) 1 2000)).state = transferState ∧
      (Call.run defaultEnv selectedState .onTimeout).state.state = .initialized :=
  ⟨((run_error defaultEnv transferState _).1 .EACCES (by decide) (by decide) id).1,
    ((run_error defaultEnv selectedState .onTimeout).2.1 trivial .timeoutError
      (by decide)).1⟩

/-- While a transfer is going on, another one is refused, and the state stays as it is. -/
theorem busy_transfer : ¬ ∀ (env : Env) (s : T4tIsodep), Reachable env s → ∀ (c : Call) (err : Err),
    (c.run env s).err = some err → (c.run env s).state.state ≠ .transfer := by
  intro h
  exact h defaultEnv transferState transferState_reachable (.transmit (some [0x55]) 1 2000) .EACCES
    (by decide) (by decide)

end SdkNrf.Isodep
