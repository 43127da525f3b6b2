import Mathlib

/-!
# Writing a modem image

`dfu_target_modem_write` of `subsys/dfu/src/dfu_target_modem.c` against the modem behind its socket.
-/

namespace SdkNrf.DfuTargetModem

/-- The values of `SO_DFU_ERROR`; a modem error that cannot be fetched is one of the others. -/
inductive ModemError
  | invalidUuid
  | invalidFileOffset
  | areaNotBlank
  | other
  deriving DecidableEq, Repr

/-- A failing send: whether `errno` is `ENOEXEC`, the modem error, and, for a deletion, whether
`SO_DFU_BACKUP_DELETE` fails and how often `SO_DFU_OFFSET` fails until the image is erased. -/
structure Failure where
  enoexec : Bool
  modemError : ModemError
  deleteFails : Bool
  pending : Nat
  deriving DecidableEq, Repr

inductive Answer
  | sent (count : Nat)
  | failed (failure : Failure)
  deriving DecidableEq, Repr

/-- `enum dfu_target_evt_id`. -/
inductive Event
  | timeout
  | eraseDone
  deriving DecidableEq, Repr

/-- What the modem holds of the image, the static offset, and the events that have been reported. -/
structure State where
  held : List UInt8
  offset : Nat
  events : List Event
  deriving DecidableEq, Repr

def EFAULT : Int := 14

def EINVAL : Int := 22

/-- The failing rounds of the loop of `delete_banked_modem_fw`: the events in them. -/
def pendingEvents (cfgTimeout : Int) : Nat → Int → List Event
  | 0, _ => []
  | pending + 1, timeout =>
    if timeout < 0 then .timeout :: pendingEvents cfgTimeout pending (cfgTimeout - 1)
    else pendingEvents cfgTimeout pending (timeout - 1)

/-- `delete_banked_modem_fw`, whose result is not used. -/
def deleteBankedModemFw (cfgTimeout : Int) (failure : Failure) (st : State) : State :=
  if failure.deleteFails then st
  else ⟨[], 0, st.events ++ pendingEvents cfgTimeout failure.pending cfgTimeout ++ [.eraseDone]⟩

/-- The bytes that an answer accepts of the `len - sent` that are offered. -/
def acceptedOf (len sent count : Nat) : Nat := min count (len - sent)

/-- `dfu_target_modem_write` where `sent` bytes have been sent: the loop, and behind it the errors,
of which two write the whole buffer once more. -/
def dfuTargetModemWrite (cfgTimeout : Int) (buf : List UInt8) :
    Nat → State → Nat → List Answer → Option (State × Int)
  | 0, _, _, _ => none
  | fuel + 1, st, sent, answers =>
    match answers.headD (.sent (buf.length - sent)) with
    | .sent count =>
      let st := { st with held := st.held ++ (buf.drop sent).take (acceptedOf buf.length sent count) }
      if 0 < acceptedOf buf.length sent count ∧ buf.length ≤ sent + acceptedOf buf.length sent count then
        some ({ st with offset := (st.offset + buf.length) % 2 ^ 32 }, 0)
      else dfuTargetModemWrite cfgTimeout buf fuel st (sent + acceptedOf buf.length sent count) answers.tail
    | .failed failure =>
      if failure.enoexec = false then some (st, -EFAULT)
      else
        match failure.modemError with
        | .invalidUuid => some (st, -EINVAL)
        | .invalidFileOffset | .areaNotBlank =>
          (dfuTargetModemWrite cfgTimeout buf fuel
            (deleteBankedModemFw cfgTimeout failure st) 0 answers.tail).map
            fun (st, err) => if err < 0 then (st, -EINVAL) else (st, 0)
        | .other => some (st, -EFAULT)

/-- What a write is for: it comes to an end; with 0 the modem has appended the buffer and the offset has grown
by its length, with an error the offset is the number of bytes that the modem holds. -/
def WritesOnce (cfgTimeout : Int) (buf : List UInt8) (st : State) (answers : List Answer) : Prop :=
  ∃ fuel st' err, dfuTargetModemWrite cfgTimeout buf fuel st 0 answers = some (st', err) ∧
    (err = 0 → st'.held = st.held ++ buf ∧ st'.offset = st.offset + buf.length) ∧
    (err ≠ 0 → st'.offset = st'.held.length)

def Failure.retried (failure : Failure) : Bool :=
  failure.enoexec ∧ (failure.modemError = .invalidFileOffset ∨ failure.modemError = .areaNotBlank)

structure Round where
  counts : List Nat
  failure : Failure
  deriving DecidableEq, Repr

namespace Round

def answers (r : Round) : List Answer := r.counts.map .sent ++ [.failed r.failure]

def reaches (r : Round) (len : Nat) : Bool := 0 < len ∧ len ≤ r.counts.sum

def retried (r : Round) : Bool := r.failure.retried

def deletes (r : Round) : Bool := r.failure.deleteFails = false

def accepted (r : Round) (len : Nat) : Nat := min r.counts.sum len

end Round

def repeated (len : Nat) (rounds : List Round) : List Round :=
  rounds.takeWhile fun r => r.retried ∧ ¬ r.reaches len

def lastRound? (len : Nat) (rounds : List Round) : Option Round :=
  (rounds.dropWhile fun r => r.retried ∧ ¬ r.reaches len).head?

def NothingKept (len : Nat) (rounds : List Round) : Prop :=
  ∀ before r after, rounds = before ++ r :: after → 0 < r.accepted len → ∃ r' ∈ r :: after, r'.deletes

def NothingLost (offset : Nat) (rounds : List Round) : Prop := (∃ r ∈ rounds, r.deletes) → offset = 0

/-- The exact condition: the rounds before the last one neither leave bytes in the modem nor take any from it,
and the last one succeeds, or it fails without having put anything into the modem. -/
def RoundsRight (len offset : Nat) (rounds : List Round) : Prop :=
  NothingKept len (repeated len rounds) ∧
    match lastRound? len rounds with
    | none => 0 < len ∧ NothingLost offset (repeated len rounds)
    | some r => if r.reaches len then NothingLost offset (repeated len rounds) else r.accepted len = 0

section Answers

variable {cfgTimeout : Int} {buf : List UInt8} {st st₀ : State} {sent count : Nat}
    {answers rest : List Answer}
  {failure : Failure}

/-- What has to hold of the result of a write that began in `st₀`. -/
def Post (buf : List UInt8) (st₀ st' : State) (err : Int) : Prop :=
  (err = 0 → st'.held = st₀.held ++ buf ∧ st'.offset = st₀.offset + buf.length) ∧
    (err ≠ 0 → st'.offset = st'.held.length)

def Ends (cfgTimeout : Int) (buf : List UInt8) (st₀ st : State) (sent : Nat) (answers : List Answer) : Prop :=
  ∃ fuel st' err, dfuTargetModemWrite cfgTimeout buf fuel st sent answers = some (st', err) ∧
    Post buf st₀ st' err

def accept (buf : List UInt8) (st : State) (sent count : Nat) : State :=
  { st with held := st.held ++ (buf.drop sent).take (acceptedOf buf.length sent count) }

def complete (buf : List UInt8) (st : State) : State :=
  { st with offset := (st.offset + buf.length) % 2 ^ 32 }

theorem post_zero_iff : Post buf st₀ st 0 ↔
    st.held = st₀.held ++ buf ∧ st.offset = st₀.offset + buf.length := by
  simp [Post]

theorem post_of_ne_zero {err : Int} (herr : err ≠ 0) : Post buf st₀ st err ↔ st.offset = st.held.length := by
  simp [Post, herr]

theorem write_stop (cfgTimeout : Int) (buf : List UInt8) (st : State) (sent : Nat) (rest : List Answer)
    (h : failure.retried = false) (fuel : Nat) :
    ∃ err, err < 0 ∧ dfuTargetModemWrite cfgTimeout buf (fuel + 1) st sent (.failed failure :: rest) =
      some (st, err) := by
  rw [dfuTargetModemWrite, List.headD_cons]
  dsimp only
  cases hexec : failure.enoexec with
  | false => exact ⟨-EFAULT, by decide, if_pos rfl⟩
  | true =>
    rw [if_neg (by decide)]
    cases herror : failure.modemError with
    | invalidUuid => exact ⟨-EINVAL, by decide, rfl⟩
    | invalidFileOffset => simp [Failure.retried, hexec, herror] at h
    | areaNotBlank => simp [Failure.retried, hexec, herror] at h
    | other => exact ⟨-EFAULT, by decide, rfl⟩

theorem write_retry (h : failure.retried = true) (fuel : Nat) :
    dfuTargetModemWrite cfgTimeout buf (fuel + 1) st sent (.failed failure :: rest) =
      (dfuTargetModemWrite cfgTimeout buf fuel (deleteBankedModemFw cfgTimeout failure st) 0 rest).map
        fun (st, err) => if err < 0 then (st, -EINVAL) else (st, 0) := by
  rw [Failure.retried, decide_eq_true_eq] at h
  rw [dfuTargetModemWrite, List.headD_cons, List.tail_cons]
  dsimp only
  rw [if_neg (by simp [h.1])]
  rcases h.2 with herror | herror <;> rw [herror]

theorem write_sent (hhead : answers.headD (.sent (buf.length - sent)) = .sent count) (fuel : Nat) :
    dfuTargetModemWrite cfgTimeout buf (fuel + 1) st sent answers =
      if 0 < acceptedOf buf.length sent count ∧ buf.length ≤ sent + acceptedOf buf.length sent count then
        some (complete buf (accept buf st sent count), 0)
      else dfuTargetModemWrite cfgTimeout buf fuel (accept buf st sent count)
        (sent + acceptedOf buf.length sent count) answers.tail := by
  rw [dfuTargetModemWrite, hhead]
  rfl

theorem err_nonpos {fuel : Nat} {st' : State} {err : Int}
    (h : dfuTargetModemWrite cfgTimeout buf fuel st sent answers = some (st', err)) : err ≤ 0 := by
  induction fuel generalizing st sent answers st' err with
  | zero => cases h
  | succ fuel ih =>
    cases hhead : answers.headD (.sent (buf.length - sent)) with
    | sent count =>
      rw [write_sent hhead] at h
      split at h
      · cases h
        rfl
      · exact ih h
    | failed failure =>
      cases answers with
      | nil => cases hhead
      | cons answer rest =>
        rw [List.headD_cons] at hhead
        subst hhead
        cases hretry : failure.retried with
        | false =>
          obtain ⟨err', hneg, hrun⟩ := write_stop cfgTimeout buf st sent rest hretry fuel
          rw [hrun] at h
          cases h
          exact hneg.le
        | true =>
          rw [write_retry hretry, Option.map_eq_some_iff] at h
          obtain ⟨⟨st'', err'⟩, -, heq⟩ := h
          dsimp only at heq
          split at heq
          · cases heq
            decide
          · cases heq
            rfl

theorem ends_sent (hhead : answers.headD (.sent (buf.length - sent)) = .sent count) :
    Ends cfgTimeout buf st₀ st sent answers ↔
      if 0 < acceptedOf buf.length sent count ∧ buf.length ≤ sent + acceptedOf buf.length sent count then
        Post buf st₀ (complete buf (accept buf st sent count)) 0
      else Ends cfgTimeout buf st₀ (accept buf st sent count) (sent + acceptedOf buf.length sent count)
        answers.tail := by
  by_cases hall : 0 < acceptedOf buf.length sent count ∧ buf.length ≤ sent + acceptedOf buf.length sent count
  · rw [if_pos hall]
    constructor
    · rintro ⟨fuel, st', err, hrun, hpost⟩
      cases fuel with
      | zero => cases hrun
      | succ fuel =>
        rw [write_sent hhead, if_pos hall] at hrun
        cases hrun
        exact hpost
    · intro hpost
      exact ⟨1, _, 0, by rw [write_sent hhead, if_pos hall], hpost⟩
  · rw [if_neg hall]
    constructor
    · rintro ⟨fuel, st', err, hrun, hpost⟩
      cases fuel with
      | zero => cases hrun
      | succ fuel =>
        rw [write_sent hhead, if_neg hall] at hrun
        exact ⟨fuel, st', err, hrun, hpost⟩
    · rintro ⟨fuel, st', err, hrun, hpost⟩
      exact ⟨fuel + 1, st', err, by rw [write_sent hhead, if_neg hall, hrun], hpost⟩

theorem ends_stop (h : failure.retried = false) :
    Ends cfgTimeout buf st₀ st sent (.failed failure :: rest) ↔ st.offset = st.held.length := by
  constructor
  · rintro ⟨fuel, st', err, hrun, hpost⟩
    cases fuel with
    | zero => cases hrun
    | succ fuel =>
      obtain ⟨err', hneg, hstop⟩ := write_stop cfgTimeout buf st sent rest h fuel
      rw [hstop] at hrun
      cases hrun
      exact (post_of_ne_zero hneg.ne).mp hpost
  · intro hoffset
    obtain ⟨err, hneg, hstop⟩ := write_stop cfgTimeout buf st sent rest h 0
    exact ⟨1, st, err, hstop, (post_of_ne_zero hneg.ne).mpr hoffset⟩

theorem ends_retry (h : failure.retried = true) :
    Ends cfgTimeout buf st₀ st sent (.failed failure :: rest) ↔
      Ends cfgTimeout buf st₀ (deleteBankedModemFw cfgTimeout failure st) 0 rest := by
  have hsame : ∀ (st' : State) (err : Int), err ≤ 0 →
      (Post buf st₀ st' (if err < 0 then -EINVAL else 0) ↔ Post buf st₀ st' err) := by
    intro st' err hle
    by_cases hneg : err < 0
    · rw [if_pos hneg, post_of_ne_zero (by decide), post_of_ne_zero hneg.ne]
    · rw [if_neg hneg, show err = 0 by omega]
  have hpair : ∀ (st' : State) (err : Int), (if err < 0 then (st', -EINVAL) else (st', 0)) =
      (st', if err < 0 then -EINVAL else 0) := by
    intro st' err
    split_ifs <;> rfl
  constructor
  · rintro ⟨fuel, st', err, hrun, hpost⟩
    cases fuel with
    | zero => cases hrun
    | succ fuel =>
      rw [write_retry h, Option.map_eq_some_iff] at hrun
      obtain ⟨⟨st'', err'⟩, hrun, heq⟩ := hrun
      dsimp only at heq
      rw [hpair] at heq
      cases heq
      exact ⟨fuel, _, err', hrun, (hsame _ _ (err_nonpos hrun)).mp hpost⟩
  · rintro ⟨fuel, st', err, hrun, hpost⟩
    refine ⟨fuel + 1, st', _, ?_, (hsame _ _ (err_nonpos hrun)).mpr hpost⟩
    rw [write_retry h, hrun, Option.map_some]
    dsimp only
    rw [hpair]

end Answers

section Rounds

variable {cfgTimeout : Int} {buf : List UInt8} {st st₀ : State} {sent : Nat} {counts : List Nat}
  {rest : List Answer}

theorem ends_counts (hsent : sent ≤ buf.length) (hnot : ¬ (0 < buf.length ∧ buf.length ≤ sent + counts.sum)) :
    Ends cfgTimeout buf st₀ st sent (counts.map .sent ++ rest) ↔
      Ends cfgTimeout buf st₀ { st with
        held := st.held ++ (buf.drop sent).take (min counts.sum (buf.length - sent)) }
        (sent + min counts.sum (buf.length - sent)) rest := by
  induction counts generalizing st sent with
  | nil => simp
  | cons count counts ih =>
    have hhead : ((.sent count : Answer) :: (counts.map .sent ++ rest)).headD (.sent (buf.length - sent)) =
      .sent count := rfl
    have hadd : acceptedOf buf.length sent count +
        min counts.sum (buf.length - (sent + acceptedOf buf.length sent count)) =
          min (count + counts.sum) (buf.length - sent) := by
      rw [acceptedOf]
      omega
    rw [List.sum_cons] at hnot ⊢
    rw [List.map_cons, List.cons_append, ends_sent hhead, if_neg, List.tail_cons, ih]
    · rw [Nat.add_assoc, hadd, accept]
      dsimp only
      rw [List.append_assoc, ← List.drop_drop, ← List.take_add, hadd]
    · rw [acceptedOf]
      omega
    · rw [acceptedOf]
      omega
    · rw [acceptedOf]
      omega

theorem ends_reaching (hsent : sent < buf.length) (hall : buf.length ≤ sent + counts.sum) :
    Ends cfgTimeout buf st₀ st sent (counts.map .sent ++ rest) ↔
      Post buf st₀ (complete buf { st with held := st.held ++ buf.drop sent }) 0 := by
  induction counts generalizing st sent with
  | nil =>
    rw [List.sum_nil] at hall
    omega
  | cons count counts ih =>
    have hhead : ((.sent count : Answer) :: (counts.map .sent ++ rest)).headD (.sent (buf.length - sent)) =
      .sent count := rfl
    rw [List.sum_cons] at hall
    rw [List.map_cons, List.cons_append, ends_sent hhead, List.tail_cons]
    by_cases hreach : 0 < acceptedOf buf.length sent count ∧
      buf.length ≤ sent + acceptedOf buf.length sent count
    · have hrest : (buf.drop sent).take (acceptedOf buf.length sent count) = buf.drop sent := by
        apply List.take_of_length_le
        rw [List.length_drop]
        omega
      rw [if_pos hreach, accept, hrest]
    · have hcount : acceptedOf buf.length sent count = count := by
        rw [acceptedOf] at hreach ⊢
        omega
      rw [if_neg hreach, ih (by omega) (by omega), accept]
      dsimp only
      rw [List.append_assoc, ← List.drop_drop, List.take_append_drop]

def Round.next (cfgTimeout : Int) (buf : List UInt8) (st : State) (r : Round) : State :=
  deleteBankedModemFw cfgTimeout r.failure { st with held := st.held ++ buf.take (r.accepted buf.length) }

def Succeeds (buf : List UInt8) (st₀ st : State) : Prop :=
  Post buf st₀ (complete buf { st with held := st.held ++ buf }) 0

theorem ends_round (r : Round) : Ends cfgTimeout buf st₀ st 0 (r.answers ++ rest) ↔
    if r.reaches buf.length then Succeeds buf st₀ st
    else if r.retried then Ends cfgTimeout buf st₀ (r.next cfgTimeout buf st) 0 rest
    else st.offset = st.held.length + r.accepted buf.length := by
  rw [Round.answers, List.append_assoc]
  by_cases hreach : 0 < buf.length ∧ buf.length ≤ r.counts.sum
  · have htrue : r.reaches buf.length = true := decide_eq_true hreach
    rw [if_pos htrue, ends_reaching hreach.1 (by omega), List.drop_zero]
    rfl
  · have hfalse : ¬ r.reaches buf.length = true := by simpa [Round.reaches] using hreach
    rw [if_neg hfalse, ends_counts (Nat.zero_le _) (by omega), List.drop_zero, Nat.sub_zero,
      List.singleton_append]
    cases hretry : r.retried with
    | false =>
      rw [if_neg (by decide), ends_stop hretry, Round.accepted]
      dsimp only
      rw [List.length_append, List.length_take, Nat.min_eq_left (Nat.min_le_right _ _)]
    | true =>
      rw [if_pos rfl, ends_retry hretry]
      rfl

theorem write_empty (fuel : Nat) : dfuTargetModemWrite cfgTimeout [] fuel st 0 (counts.map .sent) = none := by
  induction fuel generalizing st counts with
  | zero => rfl
  | succ fuel ih =>
    have hnothing : ∀ count, acceptedOf ([] : List UInt8).length 0 count = 0 := fun count =>
      Nat.min_zero count
    obtain ⟨count, hhead⟩ : ∃ count, (counts.map Answer.sent).headD (.sent (([] : List UInt8).length - 0)) =
        .sent count := by
      cases counts with
      | nil => exact ⟨0, rfl⟩
      | cons count counts => exact ⟨count, rfl⟩
    rw [write_sent hhead, hnothing, if_neg (by simp), ← List.map_tail]
    exact ih

theorem ends_last : Ends cfgTimeout buf st₀ st 0 (counts.map .sent) ↔ 0 < buf.length ∧
    Succeeds buf st₀ st := by
  by_cases hempty : 0 < buf.length
  · rw [and_iff_right hempty]
    by_cases hreach : buf.length ≤ counts.sum
    · rw [← List.append_nil (counts.map _), ends_reaching hempty (by omega), List.drop_zero]
      rfl
    · rw [← List.append_nil (counts.map _), ends_counts (Nat.zero_le _) (by omega), List.drop_zero]
      have hcount : min counts.sum (buf.length - 0) = counts.sum := by omega
      have hrest : (buf.drop counts.sum).take (acceptedOf buf.length counts.sum (buf.length - counts.sum)) =
          buf.drop counts.sum := by
        apply List.take_of_length_le
        rw [List.length_drop, acceptedOf, Nat.min_self]
      rw [hcount, Nat.zero_add, ends_sent rfl, if_pos (by rw [acceptedOf]; omega), accept]
      dsimp only
      rw [hrest, List.append_assoc, List.take_append_drop]
      rfl
  · obtain rfl := List.length_eq_zero_iff.mp (Nat.eq_zero_of_not_pos hempty)
    apply iff_of_false _ fun h => hempty h.1
    rintro ⟨fuel, st', err, hrun, -⟩
    rw [write_empty] at hrun
    cases hrun

end Rounds

section AllRounds

variable {cfgTimeout : Int} {buf : List UInt8} {st st₀ : State} {rounds : List Round} {last : List Nat}

def afterRounds (cfgTimeout : Int) (buf : List UInt8) (st : State) (rounds : List Round) : State :=
  rounds.foldl (Round.next cfgTimeout buf) st

theorem ends_rounds : Ends cfgTimeout buf st₀ st 0 (rounds.flatMap Round.answers ++ last.map .sent) ↔
    match lastRound? buf.length rounds with
    | none => 0 < buf.length ∧ Succeeds buf st₀ (afterRounds cfgTimeout buf st (repeated buf.length rounds))
    | some r =>
      if r.reaches buf.length then
        Succeeds buf st₀ (afterRounds cfgTimeout buf st (repeated buf.length rounds))
      else (afterRounds cfgTimeout buf st (repeated buf.length rounds)).offset =
        (afterRounds cfgTimeout buf st (repeated buf.length rounds)).held.length + r.accepted buf.length := by
  induction rounds generalizing st with
  | nil => exact ends_last
  | cons r rounds ih =>
    rw [List.flatMap_cons, List.append_assoc, ends_round]
    by_cases hagain : r.retried ∧ ¬ r.reaches buf.length
    · have hrep : repeated buf.length (r :: rounds) = r :: repeated buf.length rounds :=
        List.takeWhile_cons_of_pos (by simpa using hagain)
      have hlast : lastRound? buf.length (r :: rounds) = lastRound? buf.length rounds := by
        rw [lastRound?, List.dropWhile_cons_of_pos (by simpa using hagain), lastRound?]
      rw [if_neg hagain.2, if_pos hagain.1, hrep, hlast, ih]
      rfl
    · have hrep : repeated buf.length (r :: rounds) = [] :=
        List.takeWhile_cons_of_neg (by simpa using hagain)
      have hlast : lastRound? buf.length (r :: rounds) = some r := by
        rw [lastRound?, List.dropWhile_cons_of_neg (by simpa using hagain), List.head?_cons]
      rw [hrep, hlast]
      dsimp only [afterRounds, List.foldl_nil]
      by_cases hreach : r.reaches buf.length
      · rw [if_pos hreach, if_pos hreach]
      · rw [if_neg hreach, if_neg hreach, if_neg fun hretry => hagain ⟨hretry, hreach⟩]

def kept (len : Nat) : List Round → Nat
  | [] => 0
  | r :: rounds => (if (r :: rounds).any Round.deletes then 0 else r.accepted len) + kept len rounds

theorem nothingKept_cons (len : Nat) (r : Round) : NothingKept len (r :: rounds) ↔
    (0 < r.accepted len → ∃ r' ∈ r :: rounds, r'.deletes) ∧ NothingKept len rounds := by
  constructor
  · intro h
    refine ⟨h [] r rounds rfl, fun before r' after heq => h (r :: before) r' after ?_⟩
    rw [heq, List.cons_append]
  · rintro ⟨hfirst, hrest⟩ before r' after heq
    cases before with
    | nil =>
      cases heq
      exact hfirst
    | cons head before =>
      cases heq
      exact hrest before r' after rfl

theorem kept_eq_zero_iff (len : Nat) : kept len rounds = 0 ↔ NothingKept len rounds := by
  induction rounds with
  | nil =>
    apply iff_of_true rfl
    intro before r after heq
    simp at heq
  | cons r rounds ih =>
    rw [kept, Nat.add_eq_zero_iff, ih, nothingKept_cons]
    apply and_congr_left
    intro _
    by_cases hany : (r :: rounds).any Round.deletes
    · rw [if_pos hany]
      exact iff_of_true rfl fun _ => List.any_eq_true.mp hany
    · rw [if_neg hany]
      constructor
      · intro hzero hpos
        omega
      · intro h
        by_contra hne
        exact hany (List.any_eq_true.mpr (h (Nat.pos_of_ne_zero hne)))

theorem afterRounds_spec (cfgTimeout : Int) (buf : List UInt8) (st : State) (rounds : List Round) :
    ∃ extra, extra.length = kept buf.length rounds ∧
      (afterRounds cfgTimeout buf st rounds).held =
        (if rounds.any Round.deletes then [] else st.held) ++ extra ∧
      (afterRounds cfgTimeout buf st rounds).offset = if rounds.any Round.deletes then 0 else st.offset := by
  induction rounds generalizing st with
  | nil => exact ⟨[], rfl, (List.append_nil _).symm, rfl⟩
  | cons r rounds ih =>
    obtain ⟨extra, hextra, hheld, hoffset⟩ := ih (r.next cfgTimeout buf st)
    have hstep : afterRounds cfgTimeout buf st (r :: rounds) =
        afterRounds cfgTimeout buf (r.next cfgTimeout buf st) rounds := rfl
    rw [hstep, hheld, hoffset, kept, List.any_cons]
    cases hrest : rounds.any Round.deletes with
    | true =>
      rw [Bool.or_true, if_pos rfl, Nat.zero_add]
      exact ⟨extra, hextra, rfl, rfl⟩
    | false =>
      cases hdeletes : r.deletes with
      | true =>
        have hnext : (r.next cfgTimeout buf st).held = [] ∧ (r.next cfgTimeout buf st).offset = 0 := by
          rw [Round.deletes, decide_eq_true_eq] at hdeletes
          rw [Round.next, deleteBankedModemFw, if_neg (by simp [hdeletes])]
          exact ⟨rfl, rfl⟩
        simp only [hnext.1, hnext.2, Bool.or_false, Bool.false_eq_true, if_false, if_true, Nat.zero_add]
        exact ⟨extra, hextra, rfl, trivial⟩
      | false =>
        have hnext : r.next cfgTimeout buf st =
            { st with held := st.held ++ buf.take (r.accepted buf.length) } := by
          rw [Round.deletes, decide_eq_false_iff_not, Bool.not_eq_false] at hdeletes
          rw [Round.next, deleteBankedModemFw, if_pos hdeletes]
        simp only [hnext, Bool.or_false, Bool.false_eq_true, if_false]
        refine ⟨buf.take (r.accepted buf.length) ++ extra, ?_, List.append_assoc .., trivial⟩
        rw [List.length_append, List.length_take, hextra, Round.accepted,
          Nat.min_eq_left (Nat.min_le_right _ _)]

theorem succeeds_iff : Succeeds buf st₀ st ↔
    st.held = st₀.held ∧ (st.offset + buf.length) % 2 ^ 32 = st₀.offset + buf.length := by
  rw [Succeeds, post_zero_iff, complete]
  dsimp only
  rw [List.append_cancel_right_eq]

theorem nothingLost_iff (offset : Nat) :
    NothingLost offset rounds ↔ (rounds.any Round.deletes = true → offset = 0) := by
  rw [NothingLost, List.any_eq_true]

theorem exists_rounds (answers : List Answer) :
    ∃ (rounds : List Round) (last : List Nat), answers = rounds.flatMap Round.answers ++ last.map .sent := by
  induction answers with
  | nil => exact ⟨[], [], rfl⟩
  | cons answer answers ih =>
    obtain ⟨rounds, last, rfl⟩ := ih
    cases answer with
    | failed failure => exact ⟨⟨[], failure⟩ :: rounds, last, rfl⟩
    | sent count =>
      cases rounds with
      | nil => exact ⟨[], count :: last, rfl⟩
      | cons r rounds => exact ⟨⟨count :: r.counts, r.failure⟩ :: rounds, last, rfl⟩

theorem writesOnce_rounds (cfgTimeout : Int) (buf : List UInt8) (st : State)
    (hoffset : st.offset = st.held.length)
    (hsmall : st.offset + buf.length < 2 ^ 32) (rounds : List Round) (last : List Nat) :
    WritesOnce cfgTimeout buf st (rounds.flatMap Round.answers ++ last.map .sent) ↔
      RoundsRight buf.length st.offset rounds := by
  obtain ⟨extra, hextra, hheld, hoff⟩ :=
    afterRounds_spec cfgTimeout buf st (repeated buf.length rounds)
  have hsucceeds : Succeeds buf st (afterRounds cfgTimeout buf st (repeated buf.length rounds)) ↔
      NothingKept buf.length (repeated buf.length rounds) ∧
        NothingLost st.offset (repeated buf.length rounds) := by
    rw [succeeds_iff, nothingLost_iff, ← kept_eq_zero_iff, ← hextra, hheld, hoff]
    cases hany : (repeated buf.length rounds).any Round.deletes with
    | true =>
      simp only [if_true, List.nil_append, Nat.zero_add, true_implies]
      constructor
      · rintro ⟨heq, hmod⟩
        rw [Nat.mod_eq_of_lt (by omega)] at hmod
        rw [heq]
        omega
      · rintro ⟨hextra, hzero⟩
        have hempty : st.held = [] := List.length_eq_zero_iff.mp (by omega)
        rw [List.length_eq_zero_iff.mp hextra, hempty, hzero, Nat.zero_add]
        exact ⟨rfl, Nat.mod_eq_of_lt (by omega)⟩
    | false =>
      simp only [Bool.false_eq_true, if_false, false_implies, and_true]
      rw [Nat.mod_eq_of_lt hsmall, List.append_right_eq_self, List.length_eq_zero_iff, and_iff_left rfl]
  have hfails : ∀ r : Round, ((afterRounds cfgTimeout buf st (repeated buf.length rounds)).offset =
      (afterRounds cfgTimeout buf st (repeated buf.length rounds)).held.length + r.accepted buf.length) ↔
      NothingKept buf.length (repeated buf.length rounds) ∧ r.accepted buf.length = 0 := by
    intro r
    rw [← kept_eq_zero_iff, ← hextra, hheld, hoff, List.length_append]
    cases hany : (repeated buf.length rounds).any Round.deletes with
    | true =>
      simp only [if_true, List.length_nil]
      omega
    | false =>
      simp only [Bool.false_eq_true, if_false]
      omega
  rw [show WritesOnce cfgTimeout buf st (rounds.flatMap Round.answers ++ last.map .sent) ↔
    Ends cfgTimeout buf st st 0 (rounds.flatMap Round.answers ++ last.map .sent) from Iff.rfl, ends_rounds,
    RoundsRight]
  cases lastRound? buf.length rounds with
  | none =>
    dsimp only
    rw [hsucceeds]
    exact and_left_comm
  | some r =>
    dsimp only
    by_cases hreach : r.reaches buf.length
    · rw [if_pos hreach, if_pos hreach, hsucceeds]
    · rw [if_neg hreach, if_neg hreach, hfails]

/-- A write is right exactly if no failing round leaves bytes behind that nobody deletes, no image is deleted
that the offset counts, and the last round is there and leaves no bytes if it fails. -/
theorem writesOnce_iff (cfgTimeout : Int) (buf : List UInt8) (st : State)
    (hoffset : st.offset = st.held.length)
    (hsmall : st.offset + buf.length < 2 ^ 32) (answers : List Answer) :
    (∃ (rounds : List Round) (last : List Nat), answers = rounds.flatMap Round.answers ++ last.map .sent) ∧
      ∀ (rounds : List Round) (last : List Nat), answers = rounds.flatMap Round.answers ++ last.map .sent →
        (WritesOnce cfgTimeout buf st answers ↔ RoundsRight buf.length st.offset rounds) := by
  refine ⟨exists_rounds answers, ?_⟩
  rintro rounds last rfl
  exact writesOnce_rounds cfgTimeout buf st hoffset hsmall rounds last

end AllRounds

section Partial

def fresh : State := ⟨[], 0, []⟩

/-- The modem takes one byte of two and then fails: the byte stays, and the offset does not count it. -/
theorem halfSent_wrong :
    ¬ WritesOnce 60 [1, 2] fresh [.sent 1, .failed ⟨true, .other, false, 0⟩] := by
  rintro ⟨fuel, st', err, hrun, -, herr⟩
  match fuel with
  | 0 => cases hrun
  | 1 => cases hrun
  | fuel + 2 =>
    cases hrun
    exact absurd (herr (by decide)) (by decide)

theorem sentInParts_writesOnce : WritesOnce 60 [1, 2] fresh [.sent 1] :=
  ((writesOnce_iff 60 [1, 2] fresh rfl (by decide) [.sent 1]).2 [] [1] rfl).mpr
    ⟨fun before _ _ h => absurd h (by cases before <;> simp [repeated]), by decide,
      by simp [NothingLost, repeated]⟩

end Partial

end SdkNrf.DfuTargetModem
