import RemoteSlots.Proofs.Fabric.Connected
import RemoteSlots.Proofs.Initiation.Clock
import RemoteSlots.Proofs.Metadata.Wire
import RemoteSlots.Proofs.World.Housing

/-!
This module follows an initiation in which nobody takes part but its own moves and one peer: three moves open the port,
and once a peer has connected every move is one step closer to the end, where the peer has the metadata of the region.
-/

namespace RemoteSlots

open Std

def SessionConfig.Waits (config : SessionConfig) : Prop :=
  ∀ limit, config.eventTimeout = some limit → limit.nanos ≠ 0

theorem Stage.outOfTime_eq_none {config : SessionConfig} (h : config.Waits) (now : Duration) :
    outOfTime config.eventTimeout ⟨false, false, now⟩ = none := by
  unfold outOfTime
  rcases hlimit : config.eventTimeout with _ | limit
  · rfl
  · simp [h limit hlimit]

theorem Memory.loadAt_store_front {memory : Memory} {extent : Extent} (h : memory.Backs extent)
    (hlong : 16 ≤ extent.length) {words : List UInt32} (hwords : words.length = 4) :
    (memory.store extent.block 0 words).loadAt extent.block extent.address 4 = words := by
  have hfront : 4 * 4 ≤ (memory.store extent.block 0 words).length extent.block := by
    rw [length_store, h.length]
    exact hlong
  rw [loadAt_front (h.store ..) hlong, load_front hfront]
  apply List.ext_getElem?
  intro i
  rw [List.getElem?_map]
  by_cases hi : i < 4
  · rw [List.getElem?_range hi, Option.map_some, word_store_front (h.length ▸ hlong) hwords, if_pos hi,
      List.getElem?_eq_getElem (hwords ▸ hi)]
    rfl
  · rw [List.getElem?_eq_none (by simpa using hi), List.getElem?_eq_none (by omega)]
    rfl

theorem Stage.covers_element {region : Region} (haligned : region.address % 4 = 0) (hlong : 16 ≤ region.length)
    {key : UInt32} {access : Access} :
    Registration.covers ⟨region.toExtent, key, access⟩ (element region).address (element region).length := by
  simp only [Registration.covers, Bool.and_eq_true, decide_eq_true_eq]
  exact ⟨⟨Nat.le_refl _, Nat.add_le_add_left hlong _⟩, haligned⟩

def Initiation.awaitsEvent : Initiation → Bool
  | run (.awaitRequest _) | run (.awaitEstablished ..) => true
  | _ => false

def Store.Fits (store : Store) (memory : Memory) : Prop :=
  (Storage.allocate memory store.config.pages store.layout store.config.capacity).isOk

theorem Store.Fits.allocates {store : Store} {memory : Memory} (h : store.Fits memory) :
    ∃ block memory', Storage.byteSize store.layout store.config.capacity = .ok store.bufferSize ∧
      memory.allocate store.config.pages store.bufferSize = .ok (block, memory') := by
  unfold Store.Fits Storage.allocate Storage.byteSize at h
  unfold Storage.byteSize
  split at h
  · contradiction
  · next size hsize =>
    split at hsize
    · contradiction
    · next hroom =>
      obtain rfl : store.bufferSize = size := Except.ok.inj hsize
      split at h
      · contradiction
      · next block memory' hblock => exact ⟨block, memory', if_neg hroom, hblock⟩

structure Store.IsWilling (store : Store) : Prop where
  fabric : store.fabric = .loopback
  idle : store.active = none
  cancelled : store.cancelled = false
  waits : store.config.session.Waits
  long : 16 ≤ store.bufferSize

inductive Opening (store : Store) (net : Loopback) : Nat → Initiation → Prop
  | openChannel (hfree : net.listeners[store.config.port]? = none) :
    Opening store net 3 (.run (.openChannel store.config.port))
  | bind {c : ChannelId} (hfree : net.listeners[store.config.port]? = none)
    (hchannel : net.channels[c]? = some ⟨none, []⟩) : Opening store net 2 (.run (.bind ⟨c, store.config.port⟩))
  | listen {c : ChannelId} (hchannel : net.channels[c]? = some ⟨some store.config.port, []⟩)
    (hbound : net.listeners[store.config.port]? = some ⟨c, false⟩) :
    Opening store net 1 (.run (.listen ⟨c, store.config.port⟩))
  | awaitRequest {c : ChannelId} (hchannel : net.channels[c]? = some ⟨some store.config.port, []⟩)
    (hlistening : net.listeners[store.config.port]? = some ⟨c, true⟩) :
    Opening store net 0 (.run (.awaitRequest ⟨c, store.config.port⟩))

section Course

variable (store : Store) (memory : Memory) (net : Loopback) (k : ConnectionId)

structure Joined : Prop where
  fits : store.Fits memory
  connected : net.IsConnected k [] [] []

structure Housed (extent : Extent) : Prop where
  storage : World.IsStorage memory store extent
  connected : net.IsConnected k [] [] []

structure Offered (region : Region) : Prop where
  storage : World.IsStorage memory store region.toExtent
  connected : net.IsConnected k [⟨region.toExtent, region.keys.localKey, .full⟩] [] []

structure Told (region : Region) (completions : List Completion) : Prop where
  storage : World.IsStorage memory store region.toExtent
  connected : net.IsConnected k [⟨region.toExtent, region.keys.localKey, .full⟩] completions
    [(Stage.metadata region).encode]

/--
How many moves an initiation is from its end, at most, after a peer has connected, and what it found so far.
-/
inductive Course : Nat → Initiation → Prop
  | awaitRequest {binding : Binding} {held : Option UInt16} (h : Joined store memory net k) (hpending : k ∈ net.pending)
    (hchannel : net.channels[binding.channel]? = some ⟨held, [⟨.connectRequest, k, 0⟩]⟩) :
    Course 15 (.run (.awaitRequest binding))
  | accept {binding : Binding} {held : Option UInt16} (h : Joined store memory net k) (hpending : k ∈ net.pending)
    (hchannel : net.channels[binding.channel]? = some ⟨held, []⟩) : Course 14 (.run (.accept binding k))
  | awaitEstablished {binding : Binding} {held : Option UInt16} (queuePair : UInt32) (h : Joined store memory net k)
    (hchannel : net.channels[binding.channel]? = some ⟨held, [⟨.established, k, 0⟩]⟩) :
    Course 13 (.run (.awaitEstablished binding ⟨k, queuePair⟩))
  | accepted (binding : Binding) (queuePair : UInt32) (h : Joined store memory net k) :
    Course 12 (.run (.rest (.accepted binding ⟨k, queuePair⟩) (.ok ())))
  | allocate (binding : Binding) (queuePair : UInt32) (h : Joined store memory net k) :
    Course 11 (.allocate binding ⟨k, queuePair⟩)
  | clear (binding : Binding) (queuePair : UInt32) {extent : Extent} (h : Housed store memory net k extent) :
    Course 10 (.clear binding ⟨k, queuePair⟩ extent)
  | register (binding : Binding) (queuePair : UInt32) {extent : Extent} (h : Housed store memory net k extent) :
    Course 9 (.run (.register binding ⟨k, queuePair⟩ extent))
  | registered (binding : Binding) (queuePair : UInt32) {region : Region} (h : Offered store memory net k region) :
    Course 8 (.run (.rest (.registered binding ⟨k, queuePair⟩ region) (.ok ())))
  | announce (binding : Binding) (queuePair : UInt32) {region : Region} (h : Offered store memory net k region) :
    Course 7 (.run (.announce binding ⟨k, queuePair⟩ region))
  | send (binding : Binding) (queuePair : UInt32) {region : Region} (h : Offered store memory net k region)
    (hfront : memory.loadAt region.block region.address 4 = (Stage.metadata region).toWords) :
    Course 6 (.run (.send binding ⟨k, queuePair⟩ region))
  | awaitAck (binding : Binding) (queuePair : UInt32) {region : Region}
    (h : Told store memory net k region [⟨advertiseRequest, .success, .send⟩]) :
    Course 5 (.run (.awaitAck binding ⟨k, queuePair⟩ region))
  | wipe (binding : Binding) (queuePair : UInt32) {region : Region} (h : Told store memory net k region []) :
    Course 4 (.run (.wipe binding ⟨k, queuePair⟩ region (.ok ())))
  | advertised (binding : Binding) (queuePair : UInt32) {region : Region} (h : Told store memory net k region []) :
    Course 3 (.run (.rest (.advertised binding ⟨k, queuePair⟩ region) (.ok ())))
  | capture (binding : Binding) (queuePair : UInt32) {region : Region} (h : Told store memory net k region []) :
    Course 2 (.run (.capture binding ⟨k, queuePair⟩ region))
  | ready (binding : Binding) (queuePair : UInt32) {region : Region} (baseline : Psn)
    (h : Told store memory net k region []) :
    Course 1 (.run (.rest (.ready binding ⟨k, queuePair⟩ region baseline) (.ok ())))
  | finished {active : Active} (hendpoint : active.endpoint.handle = k)
    (h : Told store memory net k active.region []) : Course 0 (.finished (.ok active))

end Course

namespace World

variable {w : World} {store : Store} {k : ConnectionId} {n : Nat} {initiation : Initiation} {expired : Bool}

def Brings (w : World) (move : Move σ) (P : Memory → Loopback → σ → Prop) : Prop :=
  P (w.perform .loopback move).2.2.memory (w.perform .loopback move).2.2.net (w.perform .loopback move).1

section Brings

variable {P : Memory → Loopback → σ → Prop}

theorem brings_ask {request : Request} {resume : Except Failure request.Reply → σ}
    {reply : Except Failure request.Reply} {net : Loopback} (hserve : w.net.serve w.memory request = (reply, net))
    (h : P w.memory net (resume reply)) : w.Brings (.ask request resume) P := by
  unfold Brings
  simp only [perform, serve, hserve]
  exact h

theorem brings_embed {move : Move τ} {f : τ → σ} (h : w.Brings move fun memory net state => P memory net (f state)) :
    w.Brings (move.embed f) P := by
  unfold Brings
  rw [perform_embed]
  exact h

end Brings

section Waits

variable {P : Memory → Loopback → Stage → Prop} {config : SessionConfig} {name : String} {held : Option UInt16}

theorem brings_await_none (htimely : config.IsTimely w.now) (hwaits : config.Waits) {channel : ChannelId}
    (hchannel : w.net.channels[channel]? = some ⟨held, []⟩) {expected : EventKind} {waiting : Stage}
    {ended : Halt → Stage} {found : Event → Stage} (h : P w.memory w.net waiting) :
    w.Brings (Stage.await name config ⟨false, false, w.now⟩ channel expected waiting ended found) P := by
  unfold Stage.await
  rw [htimely.any_unreachable, Stage.outOfTime_eq_none hwaits w.now]
  exact brings_ask (Loopback.nextEvent_nil hchannel) h

theorem brings_await_found (htimely : config.IsTimely w.now) (hwaits : config.Waits) {channel : ChannelId}
    {expected : EventKind} {k : ConnectionId} {events : List Event}
    (hchannel : w.net.channels[channel]? = some ⟨held, ⟨expected, k, 0⟩ :: events⟩) {waiting : Stage}
    {ended : Halt → Stage} {found : Event → Stage}
    (h : ∀ net : Loopback, net.channels[channel]? = some ⟨held, events⟩ → net.pending = w.net.pending →
      net.links = w.net.links → P w.memory net (found ⟨expected, k, 0⟩)) :
    w.Brings (Stage.await name config ⟨false, false, w.now⟩ channel expected waiting ended found) P := by
  obtain ⟨net, hnext, hchannel', hpending, hlinks⟩ := Loopback.nextEvent_cons hchannel
  unfold Stage.await
  rw [htimely.any_unreachable, Stage.outOfTime_eq_none hwaits w.now]
  refine brings_ask hnext ?_
  simp only [ne_eq, not_true_eq_false, if_false]
  exact h net hchannel' hpending hlinks

theorem brings_awaitCompletion_found (htimely : config.IsTimely w.now) {endpoint : Endpoint} {request : UInt64}
    {regions : List Registration} {opcode : Opcode} {inbox : List (List UInt8)}
    (hlink : w.net.IsConnected endpoint.handle regions [⟨request, .success, opcode⟩] inbox) {expired : Bool}
    {waiting faulted : Stage} {ended : Except Failure Unit → Stage}
    (h : ∀ net : Loopback, net.IsConnected endpoint.handle regions [] inbox → P w.memory net (ended (.ok ()))) :
    w.Brings (Stage.awaitCompletion name config ⟨false, expired, w.now⟩ endpoint request waiting faulted ended) P := by
  obtain ⟨net, hpoll, hlink'⟩ := Loopback.poll_connected hlink
  unfold Stage.awaitCompletion
  rw [htimely.ack]
  refine brings_ask (by rw [Loopback.serve, hpoll]) ?_
  simp only [Option.filter_some, decide_true, if_true]
  exact h net hlink'

end Waits

theorem brings_allocate (hfits : store.Fits w.memory) {signals : Signals} {binding : Binding} {endpoint : Endpoint}
    {P : Memory → Loopback → Initiation → Prop}
    (h : ∀ memory extent, IsStorage memory store extent → P memory w.net (.clear binding endpoint extent) ∧
      P memory w.net (.run (.register binding endpoint extent))) :
    w.Brings ((Initiation.allocate binding endpoint).next store.layout store.config signals) P := by
  obtain ⟨block, memory, hsize, hblock⟩ := hfits.allocates
  have hstorage : IsStorage memory store ⟨block, memory.base block, store.bufferSize⟩ :=
    ⟨(Memory.allocate_fresh hblock).houses, rfl⟩
  unfold Brings
  simp only [Initiation.next, hsize, perform, hblock]
  split
  · exact (h _ _ hstorage).1
  · exact (h _ _ hstorage).2

theorem opening_move (hwilling : store.IsWilling) (htimely : store.config.session.IsTimely w.now)
    (h : Opening store w.net n initiation) (hpatient : expired = true → initiation.awaitsEvent = false) :
    w.Brings (initiation.next store.layout store.config ⟨false, expired, w.now⟩) fun memory net initiation' =>
      memory = w.memory ∧ Opening store net (n - 1) initiation' := by
  cases h with
  | openChannel hfree => exact brings_ask rfl ⟨rfl, .bind hfree (Loopback.createChannel_fresh w.net)⟩
  | bind hfree hchannel =>
    obtain ⟨net, hbind, hchannel', hbound⟩ := Loopback.bind_free hchannel hfree
    exact brings_ask (by rw [Loopback.serve, hbind, Loopback.answer]) ⟨rfl, .listen hchannel' hbound⟩
  | listen hchannel hbound =>
    obtain ⟨net, hlisten, hchannel', hlistening⟩ := Loopback.listen_bound hchannel hbound
    exact brings_ask (by rw [Loopback.serve, hlisten, Loopback.answer]) ⟨rfl, .awaitRequest hchannel' hlistening⟩
  | awaitRequest hchannel hlistening =>
    obtain rfl : expired = false := by simpa [Initiation.awaitsEvent] using hpatient
    rw [Initiation.next_run rfl, Stage.next]
    exact brings_embed (brings_await_none htimely hwilling.waits hchannel ⟨rfl, .awaitRequest hchannel hlistening⟩)

theorem course_move (hwilling : store.IsWilling) (htimely : store.config.session.IsTimely w.now)
    (h : Course store w.memory w.net k n initiation) (hpatient : expired = true → initiation.awaitsEvent = false) :
    w.Brings (initiation.next store.layout store.config ⟨false, expired, w.now⟩) fun memory net initiation' =>
      ∃ m, m ≤ n - 1 ∧ Course store memory net k m initiation' := by
  cases h with
  | awaitRequest h hpending hchannel =>
    obtain rfl : expired = false := by simpa [Initiation.awaitsEvent] using hpatient
    rw [Initiation.next_run rfl, Stage.next]
    refine brings_embed (brings_await_found htimely hwilling.waits hchannel fun net hchannel' hpending' hlinks => ?_)
    exact ⟨14, by decide, .accept ⟨h.fits, h.connected.of_links_eq hlinks⟩ (hpending' ▸ hpending) hchannel'⟩
  | accept h hpending hchannel =>
    obtain ⟨queuePair, net, haccept, hlink, hchannel'⟩ := Loopback.accept_connected h.connected hpending hchannel _
    exact brings_ask haccept ⟨13, by decide, .awaitEstablished queuePair ⟨h.fits, hlink⟩ hchannel'⟩
  | awaitEstablished queuePair h hchannel =>
    obtain rfl : expired = false := by simpa [Initiation.awaitsEvent] using hpatient
    rw [Initiation.next_run rfl, Stage.next]
    refine brings_embed (brings_await_found htimely hwilling.waits hchannel fun net hchannel' hpending' hlinks => ?_)
    exact ⟨12, by decide, .accepted _ queuePair ⟨h.fits, h.connected.of_links_eq hlinks⟩⟩
  | accepted binding queuePair h => exact ⟨11, by decide, .allocate binding queuePair h⟩
  | allocate binding queuePair h =>
    refine brings_allocate h.fits fun memory extent hstorage => ⟨?_, ?_⟩
    · exact ⟨10, by decide, .clear binding queuePair ⟨hstorage, h.connected⟩⟩
    · exact ⟨9, by decide, .register binding queuePair ⟨hstorage, h.connected⟩⟩
  | clear binding queuePair h =>
    exact ⟨9, by decide, .register binding queuePair ⟨h.storage.keeps (.clear _ _) ⟨rfl, rfl, rfl⟩, h.connected⟩⟩
  | register binding queuePair h =>
    obtain ⟨key, net, hregister, hlink⟩ :=
      Loopback.register_connected h.connected h.storage.houses.aligned .full
    exact brings_ask (by rw [Loopback.serve, hregister])
      ⟨8, by decide, .registered binding queuePair ⟨h.storage, hlink⟩⟩
  | registered binding queuePair h => exact ⟨7, by decide, .announce binding queuePair h⟩
  | @announce binding queuePair region h =>
    have hlong : 16 ≤ region.length := h.storage.length ▸ hwilling.long
    have hroom : ¬region.length < Metadata.wireLength := Nat.not_lt.mpr hlong
    have hstorage := h.storage.keeps (.store _ region.block 0 (Stage.metadata region).toWords) ⟨rfl, rfl, rfl⟩
    rw [Initiation.next_run rfl, Stage.next, if_neg hroom]
    exact ⟨6, by decide, .send binding queuePair ⟨hstorage, h.connected⟩
      (Memory.loadAt_store_front h.storage.houses.toBacks hlong rfl)⟩
  | @send binding queuePair region h hfront =>
    have hlong : 16 ≤ region.length := h.storage.length ▸ hwilling.long
    have hlength : (Stage.element region).length = 4 * 4 := rfl
    obtain ⟨net, hsend, hlink⟩ := Loopback.send_connected h.connected advertiseRequest rfl
      (Stage.covers_element h.storage.houses.aligned hlong) hlength
    have hmessage : w.memory.loadAt region.block (Stage.element region).address 4 = _ := hfront
    rw [hmessage] at hlink
    exact brings_ask (by rw [Loopback.serve, hsend, Loopback.answer])
      ⟨5, by decide, .awaitAck binding queuePair ⟨h.storage, hlink⟩⟩
  | awaitAck binding queuePair h =>
    rw [Initiation.next_run rfl, Stage.next]
    refine brings_embed (brings_awaitCompletion_found htimely h.connected fun net hlink => ?_)
    exact ⟨4, by decide, .wipe binding queuePair ⟨h.storage, hlink⟩⟩
  | wipe binding queuePair h =>
    exact ⟨3, by decide, .advertised binding queuePair
      ⟨h.storage.keeps (.store _ _ _ _) ⟨rfl, rfl, rfl⟩, h.connected⟩⟩
  | advertised binding queuePair h => exact ⟨2, by decide, .capture binding queuePair h⟩
  | capture binding queuePair h => exact brings_ask rfl ⟨1, by decide, .ready binding queuePair _ h⟩
  | ready binding queuePair baseline h => exact ⟨0, Nat.le_refl 0, .finished rfl h⟩
  | finished hendpoint h => exact ⟨0, Nat.le_refl 0, .finished hendpoint h⟩

end World

end RemoteSlots
