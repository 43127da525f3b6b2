import SdkNrf.Esb.Fifos
import SdkNrf.Esb.LinkInvariant

/-!
# Every payload is delivered once

With acknowledgements, the payloads that the PRX has received are those that the PTX has reported, and the one
it is transmitting once that has arrived.
-/

namespace SdkNrf.Esb

def Payload.onAir (p : Payload) : Payload := { p with rssi := 0 }

def onPipe (pipe : Nat) (l : List Payload) : Nat := l.countP fun p => p.pipe = pipe

@[simp] theorem onPipe_append (pipe : Nat) (l₁ l₂ : List Payload) :
    onPipe pipe (l₁ ++ l₂) = onPipe pipe l₁ + onPipe pipe l₂ := List.countP_append

@[simp] theorem onPipe_nil (pipe : Nat) : onPipe pipe [] = 0 := rfl

@[simp] theorem onPipe_singleton (pipe : Nat) (p : Payload) :
    onPipe pipe [p] = if p.pipe = pipe then 1 else 0 := by
  simp [onPipe, List.countP_singleton]

@[simp] theorem onPipe_onAir (pipe : Nat) (l : List Payload) :
    onPipe pipe (l.map Payload.onAir) = onPipe pipe l := by
  rw [onPipe, List.countP_map]
  rfl

theorem onPipe_congr {l₁ l₂ : List Payload} (h : l₁.map Payload.onAir = l₂.map Payload.onAir)
    (pipe : Nat) : onPipe pipe l₁ = onPipe pipe l₂ := by
  rw [← onPipe_onAir, h, onPipe_onAir]

def Numbered (l : List Payload) : Prop :=
  ∀ i p, l[i]? = some p → p.pid = (onPipe p.pipe (l.take i) + 1) % (pidMax + 1)

theorem Numbered.append {l : List Payload} (h : Numbered l) {p : Payload}
    (hp : p.pid = (onPipe p.pipe l + 1) % (pidMax + 1)) : Numbered (l ++ [p]) := by
  intro i q hq
  rcases Nat.lt_or_ge i l.length with hlt | hge
  · rw [List.getElem?_append_left hlt] at hq
    rw [List.take_append_of_le_length hlt.le]
    exact h i q hq
  · rw [List.getElem?_append_right hge] at hq
    obtain ⟨hi, rfl⟩ : i - l.length = 0 ∧ p = q := by
      rcases hk : i - l.length with _ | k
      · simpa [hk] using hq
      · simp [hk] at hq
    rw [show i = l.length by omega, List.take_left]
    exact hp

theorem Numbered.next {l₁ l₂ : List Payload} {p : Payload} (h : Numbered (l₁ ++ p :: l₂)) :
    p.pid = (onPipe p.pipe l₁ + 1) % (pidMax + 1) := by
  have hp := h l₁.length p (by simp)
  rwa [List.take_left] at hp

namespace Link

variable {crc : Nat → RfBuf → Nat} {cfg : Config} {l : Link}

def pending (l : Link) : List Payload := if l.arrived then l.ptx.txFifo.contents.head?.toList else []

theorem pending_eq {p : Payload} (harrived : l.arrived = true)
    (hhead : l.ptx.txFifo.contents.head? = some p) : l.pending = [p] := by
  rw [pending, if_pos harrived, hhead, Option.toList_some]

def AsksForAck (l : Link) : LinkEvent → Prop
  | .ptxWrite payload => Node.expectsAck l.ptx.cfg payload = true
  | _ => True

instance (l : Link) (e : LinkEvent) : Decidable (AsksForAck l e) := by
  cases e <;> unfold AsksForAck <;> infer_instance

structure Delivered (crc : Nat → RfBuf → Nat) (cfg : Config) (l : Link) : Prop where
  coupled : Coupled crc cfg l
  asks : ∀ p ∈ l.ptx.written, Node.expectsAck cfg p = true
  numbered : Numbered l.ptx.written
  pids : ∀ pipe, l.ptx.pids pipe = onPipe pipe l.ptx.written % (pidMax + 1)
  ids : ∀ pipe, (l.prx.rxPipeInfo pipe).pid = onPipe pipe l.prx.received % (pidMax + 1)
  received : l.prx.received.map Payload.onAir = (l.ptx.succeeded ++ l.pending).map Payload.onAir

namespace Delivered

theorem init (cfg : Config) (ptxTx ptxRx prxTx prxRx : Nat) :
    Delivered crc cfg (Link.init cfg ptxTx ptxRx prxTx prxRx) :=
  ⟨Coupled.init cfg ptxTx ptxRx prxTx prxRx, by simp [Link.init, Node.esbInit],
    by simp [Link.init, Node.esbInit, Numbered], fun _ => rfl, fun _ => rfl, rfl⟩

theorem written_eq (h : Delivered crc cfg l) {p : Payload}
    (hhead : l.ptx.txFifo.contents.head? = some p) :
    l.ptx.written = l.ptx.succeeded ++ p :: l.ptx.txFifo.contents.tail := by
  rw [h.coupled.ptx.sent, List.cons_head?_tail hhead]

theorem ptxWrite (h : Delivered crc cfg l) {payload : Payload}
    (hack : AsksForAck l (.ptxWrite payload)) :
    Delivered crc cfg (l.step crc (.ptxWrite payload)) := by
  have hcoupled := h.coupled.ptxWrite payload
  rcases Node.after_write_cases h.coupled.ptx payload with heq | ⟨haccepts, hcontents, hwritten, hpids⟩
  · have hstep : l.step crc (.ptxWrite payload) = l := by rw [Link.step, heq]
    rwa [hstep]
  · have hasks : Node.expectsAck cfg payload = true := by
      have hcfg := h.coupled.ptx_cfg
      rw [AsksForAck, hcfg] at hack
      exact hack
    refine ⟨hcoupled, ?_, ?_, ?_, h.ids, ?_⟩
    · intro p hp
      simp only [Link.step, hwritten, List.mem_append, List.mem_singleton] at hp
      rcases hp with hp | rfl
      · exact h.asks p hp
      · exact hasks
    · simp only [Link.step, hwritten]
      refine h.numbered.append ?_
      rw [h.pids, Nat.mod_add_mod]
    · intro pipe
      simp only [Link.step, hwritten, hpids, onPipe_append, onPipe_singleton]
      by_cases hpipe : pipe = payload.pipe
      · simp [hpipe, h.pids]
      · simp [hpipe, h.pids, Ne.symm hpipe]
    · have hpending : (l.step crc (.ptxWrite payload)).pending = l.pending := by
        unfold pending
        cases harrived : l.arrived with
        | false => simp [Link.step, harrived]
        | true =>
          obtain ⟨p, hhead, -⟩ := h.coupled.arrived harrived
          simp [Link.step, harrived, hcontents, List.head?_append, hhead]
      rw [hpending]
      simpa [Link.step] using h.received

theorem frame {l' : Link} (h : Delivered crc cfg l) (hcoupled : Coupled crc cfg l')
    (hptx : Node.Untouched l.ptx l'.ptx) (hprx : Node.Untouched l.prx l'.prx)
    (harrived : l'.arrived = l.arrived) : Delivered crc cfg l' := by
  have hpending : l'.pending = l.pending := by
    rw [pending, pending, harrived, hptx.txFifo]
  refine ⟨hcoupled, ?_, ?_, ?_, ?_, ?_⟩
  · simpa only [hptx.written] using h.asks
  · simpa only [hptx.written] using h.numbered
  · simpa only [hptx.pids, hptx.written] using h.pids
  · simpa only [hprx.rxPipeInfo, hprx.received] using h.ids
  · simpa only [hprx.received, hptx.succeeded, hpending] using h.received

theorem waits (h : Delivered crc cfg l) : l.ptx.state ≠ .ptxTx := by
  intro hstate
  obtain ⟨p, hhead, -, -, hack⟩ := h.coupled.sending (by simp [hstate])
  have hmem : p ∈ l.ptx.written := by
    rw [h.written_eq hhead]
    simp
  rw [h.asks p hmem] at hack
  exact absurd (hack.mp hstate) (by simp)

theorem receivedPayload_onAir (hdpl : cfg.protocol = .esbDpl) (mode : Mode) (p : Payload)
    (rssi : Int) :
    (Node.receivedPayload { cfg with mode := mode } (Node.encode cfg.protocol p) p.pipe p.pid
      rssi).onAir = p.onAir := by
  have hnoack := Coupled.encode_noack hdpl p
  rw [hdpl] at hnoack
  simp only [Node.receivedPayload, Payload.onAir, Payload.mk.injEq, true_and]
  refine ⟨?_, ?_⟩
  · cases hn : p.noack with
    | false => simpa [hdpl] using hnoack.mpr hn
    | true =>
      have hne : ¬ (Node.encode Protocol.esbDpl p).b1 % 2 = 1 := by
        rw [hnoack, hn]
        simp
      simpa [hdpl] using hne
  · simp [Node.receivedLength, hdpl, Node.encode]

theorem received_acceptPacket (h : Delivered crc cfg l) (hdpl : cfg.protocol = .esbDpl)
    {p : Payload} (hhead : l.ptx.txFifo.contents.head? = some p)
    (hroom : l.prx.rxFifo.count < l.prx.rxFifo.size) (rssi : Int)
    (hretransmit : l.prx.isRetransmit p.pipe (crc p.pipe (Node.encode cfg.protocol p))
      (Node.encode cfg.protocol p) = l.arrived) :
    (l.prx.acceptPacket p.pipe (crc p.pipe (Node.encode cfg.protocol p))
        (Node.encode cfg.protocol p) rssi).received.map Payload.onAir =
      (l.ptx.succeeded ++ [p]).map Payload.onAir := by
  have hlength : (Node.encode cfg.protocol p).b0 ≤ l.prx.cfg.maxPayloadLength := by
    have hmem : p ∈ l.ptx.written := by
      rw [h.written_eq hhead]
      simp
    have hvalid := h.coupled.ptx.valid p hmem
    simp only [h.coupled.ptx_cfg, Node.BadLength] at hvalid
    simp only [h.coupled.prx_cfg, hdpl, Node.encode]
    omega
  rw [Node.acceptPacket_received _ _ _ _ _ hroom hlength, hretransmit, Coupled.encode_pid hdpl,
    h.coupled.prx_cfg]
  have hreceived := h.received
  cases harrived : l.arrived with
  | true => simpa [pending, harrived, hhead] using hreceived
  | false =>
    rw [if_neg (by simp), List.map_append, List.map_append, List.map_singleton, List.map_singleton,
      receivedPayload_onAir hdpl]
    simpa [pending, harrived] using hreceived

theorem isRetransmit_eq (h : Delivered crc cfg l) (hdpl : cfg.protocol = .esbDpl) {p : Payload}
    (hhead : l.ptx.txFifo.contents.head? = some p) :
    l.prx.isRetransmit p.pipe (crc p.pipe (Node.encode cfg.protocol p))
      (Node.encode cfg.protocol p) = l.arrived := by
  cases harrived : l.arrived with
  | true => exact h.coupled.isRetransmit hdpl hhead harrived
  | false =>
    have hpid : p.pid = (onPipe p.pipe l.ptx.succeeded + 1) % (pidMax + 1) := by
      have hnumbered := h.numbered
      rw [h.written_eq hhead] at hnumbered
      exact hnumbered.next
    have hreceived : l.prx.received.map Payload.onAir = l.ptx.succeeded.map Payload.onAir := by
      simpa [pending, harrived] using h.received
    have hid : (l.prx.rxPipeInfo p.pipe).pid = onPipe p.pipe l.ptx.succeeded % (pidMax + 1) := by
      rw [h.ids, onPipe_congr hreceived]
    have hne : p.pid ≠ (l.prx.rxPipeInfo p.pipe).pid := by
      rw [hpid, hid, pidMax]
      omega
    rw [Node.isRetransmit, Coupled.encode_pid hdpl]
    simp [hne]

theorem packetEnd (h : Delivered crc cfg l) (hdpl : cfg.protocol = .esbDpl)
    (reception : Reception) (rssi : Int) :
    Delivered crc cfg (l.step crc (.packetEnd reception rssi)) := by
  have hcoupled := h.coupled.packetEnd hdpl reception rssi
  rw [Link.step] at hcoupled ⊢
  split
  · next hstate => exact absurd hstate h.waits
  · next hstate =>
    simp only [hstate] at hcoupled
    cases htakes : l.takes reception with
    | false =>
      refine h.frame (by simpa [htakes] using hcoupled) ⟨rfl, rfl, rfl, rfl, rfl, rfl, rfl, rfl⟩ ?_
        (by simp)
      rw [prxAfter_of_not_takes htakes]
      exact ⟨rfl, rfl, rfl, rfl, rfl, rfl, rfl, rfl⟩
    | true =>
      obtain ⟨p, hhead, hbuf, haddress, -⟩ := h.coupled.sending (by simp [hstate])
      rw [htakes] at hcoupled
      have hroom : l.prx.rxFifo.count < l.prx.rxFifo.size := by
        simp only [takes, Bool.and_eq_true, decide_eq_true_eq] at htakes
        exact htakes.2
      have hretransmit := h.isRetransmit_eq hdpl hhead
      have hreceived := h.received_acceptPacket hdpl hhead hroom rssi hretransmit
      have hprx : l.prxAfter crc reception rssi = l.prx.acceptPacket p.pipe
          (crc p.pipe (Node.encode cfg.protocol p)) (Node.encode cfg.protocol p) rssi := by
        rw [prxAfter_of_takes htakes, haddress, hbuf]
      refine ⟨hcoupled, h.asks, h.numbered, h.pids, ?_, ?_⟩
      · intro pipe
        have hpid := (Node.acceptPacket_info l.prx p.pipe (crc p.pipe (Node.encode cfg.protocol p))
          (Node.encode cfg.protocol p) rssi pipe).2
        simp only [hprx, hpid, onPipe_congr hreceived, onPipe_append, onPipe_singleton]
        by_cases hpipe : pipe = p.pipe
        · subst hpipe
          have hnumbered := h.numbered
          rw [h.written_eq hhead] at hnumbered
          simp [Coupled.encode_pid hdpl, hnumbered.next]
        · have hold : onPipe pipe l.prx.received = onPipe pipe l.ptx.succeeded := by
            rw [onPipe_congr h.received, onPipe_append, pending]
            split
            · simp [hhead, Ne.symm hpipe]
            · simp
          simp [hpipe, Ne.symm hpipe, h.ids, hold]
      · rw [pending_eq (p := p)]
        · simp only [hprx]
          exact hreceived
        · simp
        · exact hhead
  · exact h

theorem windowEnd (h : Delivered crc cfg l) (reception : Reception) (rssi : Int) :
    Delivered crc cfg (l.step crc (.windowEnd reception rssi)) := by
  have hcoupled := h.coupled.windowEnd reception rssi
  rw [Link.step] at hcoupled ⊢
  split
  · next hstate =>
    simp only [hstate] at hcoupled
    cases hheard : l.heardAck reception with
    | none =>
      rw [hheard] at hcoupled
      exact h.frame hcoupled (Node.untouched_waitForAck l.ptx rssi)
        ⟨rfl, rfl, rfl, rfl, rfl, rfl, rfl, rfl⟩ (by simp)
    | some buf =>
      rw [hheard] at hcoupled
      have hack : l.ack ≠ none := by
        unfold heardAck at hheard
        split at hheard
        · simp [hheard]
        · cases hheard
      have harrived := (h.coupled.ack hack).2
      have hdone := Node.completed_waitForAck l.ptx rssi h.coupled.ptx buf
      refine ⟨hcoupled, ?_, ?_, ?_, h.ids, ?_⟩
      · simpa only [hdone.written] using h.asks
      · simpa only [hdone.written] using h.numbered
      · simpa only [hdone.written, hdone.pids] using h.pids
      · simpa [pending, harrived, hdone.succeeded] using h.received
  · exact h

theorem ackEnd (h : Delivered crc cfg l) : Delivered crc cfg (l.step crc .ackEnd) := by
  have hcoupled := h.coupled.ackEnd
  rw [Link.step] at hcoupled ⊢
  split
  · next hstate =>
    rw [if_pos hstate] at hcoupled
    exact h.frame hcoupled ⟨rfl, rfl, rfl, rfl, rfl, rfl, rfl, rfl⟩
      ⟨rfl, rfl, rfl, rfl, rfl, rfl, rfl, rfl⟩ rfl
  · exact h

theorem prxWrite (h : Delivered crc cfg l) (payload : Payload) :
    Delivered crc cfg (l.step crc (.prxWrite payload)) := by
  refine ⟨h.coupled.prxWrite payload, h.asks, h.numbered, h.pids, ?_, ?_⟩
  · simpa [Link.step] using h.ids
  · simp only [Link.step, Node.after_write_received]
    exact h.received

theorem step (h : Delivered crc cfg l) (hdpl : cfg.protocol = .esbDpl) {e : LinkEvent}
    (hasks : AsksForAck l e) : Delivered crc cfg (l.step crc e) := by
  cases e with
  | ptxWrite payload => exact h.ptxWrite hasks
  | ptxStart =>
    exact h.frame h.coupled.ptxStart (Node.untouched_start l.ptx)
      ⟨rfl, rfl, rfl, rfl, rfl, rfl, rfl, rfl⟩ rfl
  | ptxRead =>
    exact h.frame h.coupled.ptxRead (Node.untouched_read l.ptx)
      ⟨rfl, rfl, rfl, rfl, rfl, rfl, rfl, rfl⟩ rfl
  | prxWrite payload => exact h.prxWrite payload
  | prxRead =>
    exact h.frame h.coupled.prxRead ⟨rfl, rfl, rfl, rfl, rfl, rfl, rfl, rfl⟩
      (Node.untouched_read l.prx) rfl
  | packetEnd reception rssi => exact h.packetEnd hdpl reception rssi
  | windowEnd reception rssi => exact h.windowEnd reception rssi
  | ackEnd => exact h.ackEnd

theorem received_prefix (h : Delivered crc cfg l) :
    l.prx.received.map Payload.onAir <+: l.ptx.written.map Payload.onAir := by
  rw [h.received, h.coupled.ptx.sent]
  refine List.IsPrefix.map _ ((List.prefix_append_right_inj _).mpr ?_)
  unfold pending
  split
  · cases l.ptx.txFifo.contents <;> simp
  · simp

end Delivered

def onAirOf (pipe : Nat) (l : List Payload) : List Payload :=
  (l.map Payload.onAir).filter fun p => p.pipe = pipe

/-- With lost packets and lost acknowledgements in any pattern, the payloads that have been read from
a pipe are the first ones that were written to it, and what has been reported has been pushed to the
RX FIFO. -/
theorem esb_deliversOnce {cfg : Config} (hdpl : cfg.protocol = .esbDpl)
    {ptxTx ptxRx prxTx prxRx : Nat} {l : Link}
    (hl : Reached (Link.step crc) AsksForAck (Link.init cfg ptxTx ptxRx prxTx prxRx) l) :
    (∀ pipe, onAirOf pipe l.prx.read <+: onAirOf pipe l.ptx.written) ∧
      l.ptx.succeeded.map Payload.onAir <+: l.prx.received.map Payload.onAir := by
  have h : Delivered crc cfg l :=
    hl.invariant (Delivered.init cfg ptxTx ptxRx prxTx prxRx) fun _ _ h hasks => h.step hdpl hasks
  constructor
  · intro pipe
    have hread : l.prx.read.map Payload.onAir <+: l.prx.received.map Payload.onAir := by
      rw [h.coupled.prx.kept, List.map_append]
      exact List.prefix_append _ _
    exact (hread.trans h.received_prefix).filter _
  · rw [h.received, List.map_append]
    exact List.prefix_append _ _

def exchange (packet ack : Reception) : List LinkEvent :=
  [.packetEnd packet (-40), .ackEnd, .windowEnd ack (-40)]

def lossyEvents : List LinkEvent :=
  [.ptxWrite ⟨0, 0, false, 0, [1]⟩, .ptxWrite ⟨1, 0, false, 0, [2]⟩] ++ exchange .lost .received ++
    exchange .received .lost ++ exchange .received .received ++ exchange .received .received ++
    [.prxRead, .prxRead]

def lossyLink : Link :=
  lossyEvents.foldl (Link.step fun _ _ => 0) (Link.init (Node.dplConfig .ptx) 2 2 2 2)

theorem lossyLink_deliversOnce :
    lossyLink.prx.read.map Payload.data = [[1], [2]] ∧
      lossyLink.ptx.succeeded.map Payload.onAir <+: lossyLink.prx.received.map Payload.onAir := by
  have hevents : Reached.Guarded (Link.step fun _ _ => 0) AsksForAck
      (Link.init (Node.dplConfig .ptx) 2 2 2 2) lossyEvents := by decide
  have hreached : Reached (Link.step fun _ _ => 0) AsksForAck
      (Link.init (Node.dplConfig .ptx) 2 2 2 2) lossyLink := Reached.run .start hevents
  exact ⟨by decide, (esb_deliversOnce rfl hreached).2⟩

end Link

end SdkNrf.Esb
