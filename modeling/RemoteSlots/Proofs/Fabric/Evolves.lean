import RemoteSlots.Proofs.Fabric.Sound

/-!
This module contains how the loopback fabric may change over time, whoever acts: numbers are never used
twice, a closed channel stays closed, and a connection whose server's side was closed stays unreachable.
-/

namespace RemoteSlots

open Std

namespace Link

def IsClosed (link : Link) : Prop := link.serverClosed = true ∧ link.regions = []

structure Evolves (link link' : Link) : Prop where
  channel : link'.channel = link.channel
  accepted : link.acceptedBy.isSome → link'.acceptedBy.isSome
  closed : link.IsClosed → link'.IsClosed
  hungUp : link.peerClosed → link'.peerClosed ∧ link'.acceptedBy = link.acceptedBy

namespace Evolves

theorem refl (link : Link) : link.Evolves link := ⟨rfl, id, id, fun h => ⟨h, rfl⟩⟩

theorem trans {a b c : Link} (hab : a.Evolves b) (hbc : b.Evolves c) : a.Evolves c where
  channel := hbc.channel.trans hab.channel
  accepted := fun h => hbc.accepted (hab.accepted h)
  closed := fun h => hbc.closed (hab.closed h)
  hungUp := by
    intro h
    obtain ⟨hb, hab'⟩ := hab.hungUp h
    obtain ⟨hc, hbc'⟩ := hbc.hungUp hb
    exact ⟨hc, hbc'.trans hab'⟩

theorem complete (link : Link) (c : Completion) : link.Evolves (link.complete c) where
  channel := channel_complete link c
  accepted := by simp
  closed := by simp [IsClosed]
  hungUp := by simp

theorem closeServer (link : Link) : link.Evolves link.closeServer :=
  ⟨rfl, id, fun _ => ⟨rfl, rfl⟩, fun h => ⟨h, rfl⟩⟩

end Evolves

structure SameStanding (link link' : Link) : Prop where
  acceptedBy : link'.acceptedBy = link.acceptedBy
  peerClosed : link'.peerClosed = link.peerClosed
  psn : link'.psn = link.psn

theorem SameStanding.refl (link : Link) : link.SameStanding link := ⟨rfl, rfl, rfl⟩

theorem SameStanding.complete (link : Link) (c : Completion) : link.SameStanding (link.complete c) :=
  ⟨acceptedBy_complete link c, peerClosed_complete link c, psn_complete link c⟩

end Link

namespace Loopback

/--
How the fabric may change.
-/
structure Evolves (net net' : Loopback) : Prop where
  lastId_le : net.lastId ≤ net'.lastId
  links : ∀ (k : ConnectionId) (link : Link), net.links[k]? = some link →
    ∃ link', net'.links[k]? = some link' ∧ link.Evolves link'
  channels : ∀ c : ChannelId, c ≤ net.lastId → net.channels[c]? = none → net'.channels[c]? = none
  pending : ∀ k ∈ net'.pending, k ∈ net.pending ∨ net.lastId < k

namespace Evolves

variable {net : Loopback}

theorem refl (net : Loopback) : net.Evolves net where
  lastId_le := Nat.le_refl _
  links := fun _ link h => ⟨link, h, .refl link⟩
  channels := fun _ _ h => h
  pending := fun _ h => .inl h

theorem trans {a b c : Loopback} (hab : a.Evolves b) (hbc : b.Evolves c) : a.Evolves c where
  lastId_le := Nat.le_trans hab.lastId_le hbc.lastId_le
  links := by
    intro k link hlink
    obtain ⟨link', hlink', hev⟩ := hab.links k link hlink
    obtain ⟨link'', hlink'', hev'⟩ := hbc.links k link' hlink'
    exact ⟨link'', hlink'', hev.trans hev'⟩
  channels := fun d hle h =>
    hbc.channels d (Nat.le_trans hle hab.lastId_le) (hab.channels d hle h)
  pending := by
    intro k hk
    rcases hbc.pending k hk with hold | hnew
    · exact hab.pending k hold
    · exact .inr (Nat.lt_of_le_of_lt hab.lastId_le hnew)

theorem deliver (net : Loopback) (channel : ChannelId) (event : Event) :
    net.Evolves (net.deliver channel event) where
  lastId_le := Nat.le_refl _
  links := fun _ link h => ⟨link, h, .refl link⟩
  channels := by
    intro c _ hnone
    rw [getElem?_deliver]
    split <;> simp [hnone]
  pending := fun _ h => .inl h

theorem modifyLink {id : ConnectionId} {f : Link → Link}
    (hf : ∀ link, net.links[id]? = some link → link.Evolves (f link)) :
    net.Evolves (net.modifyLink id f) where
  lastId_le := Nat.le_refl _
  links := by
    intro k link hlink
    rw [getElem?_modifyLink]
    split
    · next heq =>
      subst heq
      exact ⟨f link, by simp [hlink], hf link hlink⟩
    · exact ⟨link, hlink, .refl link⟩
  channels := fun _ _ h => h
  pending := fun _ h => .inl h

end Evolves

end Loopback

end RemoteSlots
