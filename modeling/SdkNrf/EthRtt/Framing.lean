import SdkNrf.EthRtt.Driver

/-!
# Frames over RTT

The bytes that are sent for some frames are read in pieces.
-/

namespace SdkNrf.EthRtt

open Slip

section Sent

variable (crcStep : UInt16 → UInt8 → UInt16)

theorem sendLoop_eq (plain data : List UInt8) : sendLoop plain data = plain ++ escape data := by
  induction data generalizing plain with
  | nil => rw [sendLoop, escape, List.flatMap_nil, List.append_nil]
  | cons b data ih =>
    rw [sendLoop, ih, ih, escape, escape, List.flatMap_cons, stuffed, stuff]
    by_cases hend : b = endByte
    · simp [hend]
    · by_cases hesc : b = esc
      · rw [if_pos (Or.inr hesc), if_neg hend, if_neg hend, if_pos hesc]
        simp
      · rw [if_neg (by tauto), if_neg hend, if_neg hesc]
        simp

theorem sendFragments_eq (crc : UInt16) (fragments : List (List UInt8)) :
    sendFragments crcStep crc fragments =
      (crc16 crcStep crc fragments.flatten, escape fragments.flatten) := by
  induction fragments generalizing crc with
  | nil => rfl
  | cons fragment fragments ih =>
    simp only [sendFragments, sendFragment, ih, sendLoop_eq, List.nil_append, List.flatten_cons, crc16,
      List.foldl_append, escape, List.flatMap_append]

def withCrc (frame : List UInt8) : List UInt8 := frame ++ crcBytes (crc16 crcStep 0xFFFF frame)

theorem sendFrame_eq (fragments : List (List UInt8)) :
    sendFrame crcStep fragments = Slip.frame (withCrc crcStep fragments.flatten) := by
  rw [sendFrame, sendFragments_eq]
  simp only [sendLoop_eq, Slip.frame, withCrc, escape, List.flatMap_append, List.nil_append,
    List.append_assoc, List.cons_append]

theorem length_withCrc (frame : List UInt8) : (withCrc crcStep frame).length = frame.length + 2 := by
  rw [withCrc, List.length_append]
  rfl

theorem recvFrame_withCrc {frame : List UInt8} (hne : frame ≠ []) :
    recvFrame crcStep (withCrc crcStep frame) = some frame := by
  have hpos := List.length_pos_iff.mpr hne
  unfold recvFrame
  rw [length_withCrc, if_neg (by omega), Nat.add_sub_cancel, withCrc, List.take_left,
    List.drop_left, if_pos rfl]

theorem recvFrame_nil : recvFrame crcStep [] = none := rfl

theorem length_of_recvFrame {data frame : List UInt8} (h : recvFrame crcStep data = some frame) :
    frame.length + 2 = data.length := by
  simp only [recvFrame] at h
  split_ifs at h with hshort hcrc
  rw [← Option.some.inj h, List.length_take]
  omega

theorem totalLen_recvFrame (received : List (List UInt8)) :
    ((received.filterMap (recvFrame crcStep)).map fun frame => frame.length + 2).sum ≤
      totalLen received := by
  induction received with
  | nil => exact le_refl _
  | cons data received ih =>
    rw [List.filterMap_cons, totalLen, List.map_cons, List.sum_cons]
    rw [totalLen] at ih
    cases hrecv : recvFrame crcStep data with
    | none => exact ih.trans (Nat.le_add_left _ _)
    | some frame =>
      have hlength := length_of_recvFrame crcStep hrecv
      simp only [List.map_cons, List.sum_cons]
      omega

end Sent

/-- `poll_work_handler` reads these bytes, in this order. A read is not empty and not longer than what the
buffer has room for. -/
inductive Polled (crcStep : UInt16 → UInt8 → UInt16) :
    Context → List (List UInt8) → Context → List (List UInt8) → Prop
  | nil (ctx : Context) : Polled crcStep ctx [] ctx []
  | cons {ctx ctx₁ ctx₂ : Context} {bytes : List UInt8} {reads frames frames' : List (List UInt8)}
      (hne : bytes ≠ [])
      (hfit : (discardOverflow ctx).rxBufferLength + bytes.length ≤ ctx.rxBuffer.length)
      (hturn : pollTurn crcStep ctx bytes = some (ctx₁, frames))
      (hrest : Polled crcStep ctx₁ reads ctx₂ frames') :
      Polled crcStep ctx (bytes :: reads) ctx₂ (frames ++ frames')

section Runs

variable {crcStep : UInt16 → UInt8 → UInt16} {ctx ctx' : Context} {body : List UInt8} {size : Nat}
  {reads received : List (List UInt8)}

theorem exists_pollTurn (hpos : 0 < size) (h : Holds ctx body size) {bytes : List UInt8}
    (hfit : (discardOverflow ctx).rxBufferLength + bytes.length ≤ ctx.rxBuffer.length) :
    ∃ ctx₁ frames body₁, pollTurn crcStep ctx bytes = some (ctx₁, frames) ∧
      Holds ctx₁ body₁ size := by
  by_cases hfull : body.length < size
  · have hkeep : discardOverflow ctx = ctx := by
      unfold discardOverflow
      rw [if_neg (by rw [h.length, h.size]; omega)]
    rw [hkeep, h.length, h.size] at hfit
    obtain ⟨ctx₁, hturn, hholds⟩ := pollTurn_eq crcStep h hfull hfit
    exact ⟨ctx₁, _, _, hturn, hholds⟩
  · have hle := h.le
    have hempty : Holds { ctx with rxBufferLength := 0 } [] size :=
      ⟨rfl, h.size, ctx.rxBuffer, rfl⟩
    have hdiscard : discardOverflow ctx = { ctx with rxBufferLength := 0 } := by
      unfold discardOverflow
      rw [if_pos (by rw [h.length, h.size]; omega)]
    have hagain : pollTurn crcStep ctx bytes =
        pollTurn crcStep { ctx with rxBufferLength := 0 } bytes := by
      have hsame : discardOverflow { ctx with rxBufferLength := 0 } =
          { ctx with rxBufferLength := 0 } := by
        unfold discardOverflow
        split_ifs <;> rfl
      simp only [pollTurn, hdiscard, hsame]
    rw [hdiscard, h.size] at hfit
    have hfit' : ([] : List UInt8).length + bytes.length ≤ size := hfit
    obtain ⟨ctx₁, hturn, hholds⟩ := pollTurn_eq crcStep hempty hpos hfit'
    exact ⟨ctx₁, _, _, hagain.trans hturn, hholds⟩

theorem Polled.holds (hpos : 0 < size) (hrun : Polled crcStep ctx reads ctx' received)
    (h : Holds ctx body size) : ∃ body', Holds ctx' body' size := by
  induction hrun generalizing body with
  | nil ctx => exact ⟨body, h⟩
  | cons hne hfit hturn hrest ih =>
    obtain ⟨ctx₁, frames, body₁, hturn₁, hholds⟩ := exists_pollTurn hpos h hfit
    rw [hturn] at hturn₁
    cases hturn₁
    exact ih hholds

theorem Polled.ne_nil (hrun : Polled crcStep ctx reads ctx' received) :
    ∀ read ∈ reads, read ≠ [] := by
  induction hrun with
  | nil ctx => exact fun read hread => absurd hread List.not_mem_nil
  | cons hne hfit hturn hrest ih =>
    intro read hread
    rcases List.mem_cons.mp hread with rfl | hread
    · exact hne
    · exact ih read hread

theorem Polled.received_eq (hrun : Polled crcStep ctx reads ctx' received) (h : Holds ctx body size)
    (hroom : ∀ front back, reads = front ++ back → (readAll body front).1.length < size) :
    received = (readAll body reads).2.filterMap (recvFrame crcStep) := by
  induction hrun generalizing body with
  | nil ctx => rfl
  | @cons ctx ctx₁ ctx₂ bytes reads frames frames' hne hfit hturn hrest ih =>
    have hbody : body.length < size := hroom [] (bytes :: reads) rfl
    have hkeep : discardOverflow ctx = ctx := by
      unfold discardOverflow
      rw [if_neg (by rw [h.length, h.size]; omega)]
    rw [hkeep, h.length, h.size] at hfit
    obtain ⟨ctx₁', hturn₁, hholds⟩ := pollTurn_eq crcStep h hbody hfit
    rw [hturn] at hturn₁
    cases hturn₁
    have hrest' := ih hholds (by
      intro front back hreads
      exact hroom (bytes :: front) back (by rw [hreads, List.cons_append]))
    rw [readAll, List.filterMap_append, hrest']

end Runs

theorem length_run_lt {bodies : List (List UInt8)} {size : Nat} (hpos : 0 < size)
    (hlen : ∀ data ∈ bodies, data.length < size) {front back : List UInt8}
    (hstream : bodies.flatMap Slip.frame = front ++ back) :
    ((State.mk [] 0).run front).1.body.length < size := by
  have hrun := run_frames bodies
  rw [hstream, run_append] at hrun
  by_cases hback : back = []
  · have hbody := congrArg (fun result => result.1.body.length) hrun
    rw [hback] at hbody
    simp only [State.run, List.length_nil] at hbody
    omega
  · have hend : endByte ∈ back := by
      have hlast : (front ++ back).getLast? = some endByte := by
        rw [← hstream]
        rcases List.eq_nil_or_concat bodies with hnil | ⟨init, data, hbodies⟩
        · rw [hnil] at hstream
          exact absurd (List.append_eq_nil_iff.mp hstream.symm).2 hback
        · rw [hbodies, List.concat_eq_append, List.flatMap_append, List.flatMap_singleton, Slip.frame,
            ← List.cons_append, ← List.append_assoc, List.getLast?_concat]
      rw [List.getLast?_append_of_ne_nil _ hback] at hlast
      exact List.mem_of_getLast? hlast
    obtain ⟨data, hdata, hle⟩ := exists_finished (tracks_start.run front).tail hend
    have hmem : data ∈ bodies.flatMap fun data => [[], data] := by
      have hframes := congrArg Prod.snd hrun
      dsimp only at hframes
      rw [← hframes]
      exact List.mem_append_right _ hdata
    obtain ⟨data', hdata', hcases⟩ := List.mem_flatMap.mp hmem
    simp only [List.mem_cons, List.not_mem_nil, or_false] at hcases
    rcases hcases with rfl | rfl
    · exact hle.trans_lt hpos
    · exact hle.trans_lt (hlen data hdata')

theorem filterMap_recvFrame (crcStep : UInt16 → UInt8 → UInt16) {frames : List (List UInt8)}
    (hne : ∀ frame ∈ frames, frame ≠ []) :
    ((frames.map (withCrc crcStep)).flatMap fun data => [[], data]).filterMap (recvFrame crcStep) =
      frames := by
  induction frames with
  | nil => rfl
  | cons frame frames ih =>
    have hrest := ih fun other hother => hne other (List.mem_cons_of_mem _ hother)
    have hfirst := recvFrame_withCrc crcStep (hne frame List.mem_cons_self)
    rw [List.map_cons, List.flatMap_cons, List.filterMap_append, hrest,
      List.filterMap_cons_none (recvFrame_nil crcStep), List.filterMap_cons_some hfirst]
    rfl

theorem totalLen_withCrc (crcStep : UInt16 → UInt8 → UInt16) (frames : List (List UInt8)) :
    totalLen ((frames.map (withCrc crcStep)).flatMap fun data => [[], data]) =
      (frames.map fun frame => frame.length + 2).sum := by
  induction frames with
  | nil => rfl
  | cons frame frames ih =>
    rw [List.map_cons, List.flatMap_cons, totalLen_append, ih, List.map_cons, List.sum_cons]
    simp [totalLen, length_withCrc]

/-- Inside the buffer whatever is read, and for the bytes of frames that fit all of them received exactly
if every read ends well. -/
theorem frames_received_iff (crcStep : UInt16 → UInt8 → UInt16) {size : Nat} (hpos : 0 < size)
    {ctx ctx' : Context} (hempty : ctx.rxBufferLength = 0) (hsize : ctx.rxBuffer.length = size)
    {reads received : List (List UInt8)} (hrun : Polled crcStep ctx reads ctx' received) :
    (∀ bytes, (discardOverflow ctx').rxBufferLength + bytes.length ≤ size →
      pollTurn crcStep ctx' bytes ≠ none) ∧
    ∀ frames : List (List (List UInt8)), (∀ frame ∈ frames, frame.flatten ≠ []) →
      (∀ frame ∈ frames, frame.flatten.length + 2 < size) →
        reads.flatten = frames.flatMap (sendFrame crcStep) →
          (received = frames.map List.flatten ↔ CutsWell reads) := by
  have hstart : Holds ctx [] size := ⟨hempty, hsize, ctx.rxBuffer, rfl⟩
  constructor
  · intro bytes hfit
    obtain ⟨body, hholds⟩ := hrun.holds hpos hstart
    have hroom : (discardOverflow ctx').rxBufferLength + bytes.length ≤ ctx'.rxBuffer.length := by
      rw [hholds.size]
      exact hfit
    obtain ⟨ctx₁, frames, body₁, hturn, -⟩ : ∃ ctx₁ frames body₁,
        pollTurn crcStep ctx' bytes = some (ctx₁, frames) ∧ Holds ctx₁ body₁ size :=
      exists_pollTurn hpos hholds hroom
    rw [hturn]
    exact Option.some_ne_none _
  · intro frames hne hlen hsent
    have hnonempty : ∀ frame ∈ frames.map List.flatten, frame ≠ [] := List.forall_mem_map.mpr hne
    have hstream : reads.flatten =
        ((frames.map List.flatten).map (withCrc crcStep)).flatMap Slip.frame := by
      rw [hsent, List.map_map, List.flatMap_map]
      apply List.flatMap_congr
      intro frame hframe
      exact sendFrame_eq crcStep frame
    have hbodies : ∀ data ∈ (frames.map List.flatten).map (withCrc crcStep), data.length < size := by
      intro data hdata
      obtain ⟨frame, hframe, rfl⟩ := List.mem_map.mp hdata
      obtain ⟨fragments, hfragments, rfl⟩ := List.mem_map.mp hframe
      rw [length_withCrc]
      exact hlen fragments hfragments
    have hreceived := hrun.received_eq hstart (by
      intro front back hreads
      apply (length_readAll_le front).trans_lt
      apply length_run_lt hpos hbodies
      rw [← hstream, hreads, List.flatten_append])
    have hwhole := run_frames ((frames.map List.flatten).map (withCrc crcStep))
    rw [← hstream] at hwhole
    constructor
    · intro hall
      by_contra hbad
      have hlost := lost_of_not_cutsWell hrun.ne_nil hbad
      have htotal := totalLen_recvFrame crcStep (readAll [] reads).2
      rw [← hreceived, hall, ← totalLen_withCrc crcStep] at htotal
      rw [hwhole] at hlost
      simp only [List.length_nil] at hlost
      omega
    · intro hwell
      rw [hreceived, (readAll_eq_iff hrun.ne_nil).mpr hwell, hwhole]
      exact filterMap_recvFrame crcStep hnonempty

instance (front back : List UInt8) : Decidable (BadCut front back) :=
  inferInstanceAs (Decidable (_ ∧ _))

theorem cutsWell_of_forall {reads : List (List UInt8)}
    (h : ∀ i < reads.length + 1, ¬ BadCut (reads.take i).flatten (reads.drop i).flatten) :
    CutsWell reads := by
  intro front back hreads
  have hcut := h front.length (by rw [hreads, List.length_append]; omega)
  rw [hreads, List.take_left, List.drop_left] at hcut
  exact hcut

/-- A byte of `crc16_ccitt`. -/
def ccittStep (seed : UInt16) (b : UInt8) : UInt16 :=
  let e := seed.toUInt8 ^^^ b
  let f := (e ^^^ (e <<< 4)).toUInt16
  (seed >>> 8) ^^^ (f <<< 8) ^^^ (f <<< 3) ^^^ (f >>> 4)

def emptyContext : Context := ⟨List.replicate 16 0, 0⟩

def cutEscape : List (List UInt8) :=
  [(sendFrame ccittStep [[1, 0xDB], [3]]).take 3, (sendFrame ccittStep [[1, 0xDB], [3]]).drop 3]

theorem cutEscape_received :
    ∃ ctx' received, Polled ccittStep emptyContext cutEscape ctx' received ∧
      received = [[1, 0xDB, 3]] := by
  obtain ⟨ctx', received, hrun⟩ : ∃ ctx' received,
      Polled ccittStep emptyContext cutEscape ctx' received := by
    refine ⟨_, _, .cons ?_ ?_ rfl (.cons ?_ ?_ rfl (.nil _))⟩ <;> decide
  have hall := (frames_received_iff ccittStep (by decide : 0 < 16) rfl rfl hrun).2
    [[[1, 0xDB], [3]]] (by decide) (by decide) (by decide)
  exact ⟨ctx', received, hrun, hall.mpr (cutsWell_of_forall (by decide))⟩

def cutBehindEscape : List (List UInt8) :=
  [(sendFrame ccittStep [[0xDB, 0xDC]]).take 3, (sendFrame ccittStep [[0xDB, 0xDC]]).drop 3]

/-- The frame is lost. -/
theorem cutBehindEscape_lost :
    cutBehindEscape.flatten = [[[0xDB, 0xDC]]].flatMap (sendFrame ccittStep) ∧
      ∃ ctx' received, Polled ccittStep emptyContext cutBehindEscape ctx' received ∧
        received = [] := by
  refine ⟨by decide, _, _, .cons ?_ ?_ rfl (.cons ?_ ?_ rfl (.nil _)), ?_⟩ <;> decide

end SdkNrf.EthRtt
