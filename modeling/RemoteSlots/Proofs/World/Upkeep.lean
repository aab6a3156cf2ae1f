import RemoteSlots.Proofs.Fabric.Orderly
import RemoteSlots.Proofs.Session.Advertisement
import RemoteSlots.Proofs.World.LettingGo

/-!
This module shows that the loopback fabric is in order in every world that can come about: ports are bound while a
channel holds them, connections only wait where somebody listens, and a connection whose server's side was closed,
by whoever and however, is shut for good.
-/

namespace RemoteSlots

open Std

namespace Loopback

structure InOrder (net : Loopback) : Prop where
  bound : ∀ port, net.isBound port ↔
    ∃ (c : ChannelId) (channel : Channel), net.channels[c]? = some channel ∧ channel.port = some port
  holder : ∀ (port : UInt16) (c d : ChannelId) (channel other : Channel), net.channels[c]? = some channel →
    net.channels[d]? = some other → channel.port = some port → other.port = some port → c = d
  pending : ∀ k ∈ net.pending, ∃ (link : Link) (channel : Channel) (port : UInt16), net.links[k]? = some link ∧
    net.channels[link.channel]? = some channel ∧ channel.port = some port ∧
      net.listeners[port]? = some { channel := link.channel, listening := true }
  numbers : net.numbers.Nodup
  closed : ∀ (k : ConnectionId) (link : Link), net.links[k]? = some link → link.serverClosed → link.regions = []

structure IsShut (net : Loopback) (k : ConnectionId) : Prop where
  register : ∀ extent access, net.register k extent access = .error (.transport .endpointDisconnected)
  send : ∀ memory request element signaled,
    net.send memory k request element signaled = .error (.transport .endpointDisconnected)
  write : ∀ memory request address key words, ∃ net',
    net.write memory k request address key words = (.error (.remoteAccess .connectionClosed), memory, net') ∧
      net'.receivePsn k = net.receivePsn k
  read : ∀ memory address key count,
    net.read memory k address key count = .error (.failed (.remoteAccess .connectionClosed))

variable {net : Loopback}

theorem InOrder.of_orderly (hnet : net.Sound) (h : net.Orderly) (hids : net.lastId < 2 ^ 32) : net.InOrder where
  bound := by
    intro port
    rw [isBound, TreeMap.contains_eq_isSome_getElem?]
    constructor
    · intro hsome
      obtain ⟨l, hl⟩ := Option.isSome_iff_exists.mp hsome
      obtain ⟨channel, hchannel, hport⟩ := hnet.listener port l hl
      exact ⟨l.channel, channel, hchannel, hport⟩
    · rintro ⟨c, channel, hchannel, hport⟩
      obtain ⟨l, hl, -⟩ := hnet.bound c channel port hchannel hport
      rw [hl]
      rfl
  holder := by
    intro port c d channel other hc hd hport hport'
    obtain ⟨l, hl, rfl⟩ := hnet.bound c channel port hc hport
    obtain ⟨l', hl', rfl⟩ := hnet.bound d other port hd hport'
    rw [hl] at hl'
    injection hl' with hl'
    rw [hl']
  pending := by
    intro k hk
    obtain ⟨link, hlink, -⟩ := hnet.pending k hk
    obtain ⟨port, hl⟩ := h.listening k hk link hlink
    obtain ⟨channel, hchannel, hport⟩ := hnet.listener port _ hl
    exact ⟨link, channel, port, hlink, hchannel, hport, hl⟩
  numbers := (h.numbered hids).nodup_numbers
  closed := h.closed

theorem isShut_of_serverClosed {k : ConnectionId} {link : Link} (hlink : net.links[k]? = some link)
    (hclosed : link.serverClosed = true) : net.IsShut k where
  register := by
    intro extent access
    simp only [Loopback.register, hlink, hclosed, if_true]
  send := by
    intro memory request element signaled
    simp only [Loopback.send, hlink, hclosed, if_true]
  write := by
    intro memory request address key words
    simp only [Loopback.write, hlink, target, hclosed, if_true]
    refine ⟨_, rfl, ?_⟩
    simp only [receivePsn, getElem?_modifyLink, if_pos, hlink, Option.map_some, Link.psn_complete]
  read := by
    intro memory address key count
    simp only [Loopback.read, hlink, target, hclosed, if_true]

end Loopback

namespace World

variable {w : World}

theorem orderly_of_effects {allowed : Handle → Prop} {memory memory' : Memory} {net net' : Loopback}
    (h : Effects allowed memory net memory' net') (hnet : net.Sound)
    (hallowed : ∀ handle, allowed handle → handle.IsIssued memory net) (horderly : net.Orderly) : net'.Orderly := by
  induction h with
  | refl => exact horderly
  | serve request hprev _ ih => exact ih.serve (hprev.advances hnet hallowed).sound ..
  | store _ _ _ _ _ ih => exact ih
  | clear _ _ _ ih => exact ih
  | allocate _ _ ih => exact ih

theorem orderly_peer (hw : w.Sound) (h : w.net.Orderly) {action : Action} (hpeer : action.isPeer) :
    (w.act action).net.Orderly := by
  cases action with
  | connect port =>
    simp only [act, World.connect]
    rcases hconnect : w.net.connect port with failure | ⟨id, net⟩
    · exact h
    · exact h.connect hw.net hconnect
  | inject port kind status =>
    simp only [act, World.inject]
    rcases hinject : w.net.inject port kind status with failure | net
    · exact h
    · exact h.inject hinject
  | receive peer limit => exact h.receive ..
  | write peer request address key words => exact h.write ..
  | hangUp peer => exact h.hangUp ..
  | unmap block =>
    rw [net_act_unmap]
    exact h
  | _ => contradiction

theorem Reachable.orderly (h : w.Reachable) : w.net.Orderly := by
  induction w, h using Reachable.induct with
  | initial mapper now => exact .empty
  | act w action _ hw ht ih =>
    by_cases hpeer : action.isPeer
    · exact orderly_peer hw ih hpeer
    · exact orderly_of_effects (effects_act hw ht hpeer) hw.net (fun handle huse => hw.isIssued_of_mayUse huse) ih

theorem Reachable.evolves (h : w.Reachable) (actions : List Action) : w.net.Evolves (w.after actions).net := by
  induction actions using List.reverseRecOn with
  | nil => exact .refl w.net
  | append_singleton actions action ih =>
    obtain ⟨hw, ht⟩ := (h.after actions).sound
    rw [after_concat]
    exact ih.trans (act_evolves hw ht action)

theorem Reachable.isShut (h : w.Reachable) {k : ConnectionId} {link : Link} (hlink : w.net.links[k]? = some link)
    (hclosed : link.serverClosed) (actions : List Action) : (w.after actions).net.IsShut k := by
  obtain ⟨link', hlink', hev⟩ := (h.evolves actions).links k link hlink
  exact Loopback.isShut_of_serverClosed hlink' (hev.closed ⟨hclosed, h.orderly.closed k link hlink hclosed⟩).1

/--
Whether a world keeps its fabric in order: now, and whatever is closed, dropped or given back.
-/
structure KeepsOrder (w : World) : Prop where
  tables : w.net.InOrder
  shut : ∀ (k : ConnectionId) (link : Link), w.net.links[k]? = some link → link.serverClosed →
    ∀ later, (w.after later).net.IsShut k
  -- What a party lets go of, and nobody takes over, is gone.
  dropped : ∀ action party handle, handle.isBlock = false → handle ∈ w.holdings party →
    (∀ q, handle ∉ (w.act action).holdings q) → handle.IsGone (w.act action).net
  -- What belongs to no party is gone when it is closed.
  returned : ∀ request handle, w.isOpenTo request → request.givesBack? = some handle →
    handle.IsGone (w.act (.request request)).net

theorem fabric_in_order (h : w.Reachable) (hids : w.net.lastId < 2 ^ 32) : w.KeepsOrder where
  tables := .of_orderly h.sound.1.net h.orderly hids
  shut := fun _ _ hlink hclosed later => h.isShut hlink hclosed later
  dropped := fun _ _ _ hblock hheld hfree => h.isGone hblock hheld hfree
  returned := fun _ _ hopen hback => isGone_of_isOpenTo h.sound.1 hopen hback

set_option maxRecDepth 10000 in
theorem fabric_in_order_registered :
    sampleRegistered.Reachable ∧ sampleRegistered.net.lastId < 2 ^ 32 ∧
      sampleRegistered.net.numbers = [1, 2, 4] ∧ sampleRegistered.net.isBound 7000 ∧ sampleRegistered.KeepsOrder := by
  have hids : sampleRegistered.net.lastId < 2 ^ 32 := by decide +kernel
  have hnumbers : sampleRegistered.net.numbers = [1, 2, 4] := by decide +kernel
  have hbound : sampleRegistered.net.isBound 7000 := by decide +kernel
  exact ⟨reachable_sampleRegistered, hids, hnumbers, hbound, fabric_in_order reachable_sampleRegistered hids⟩

end World

end RemoteSlots
