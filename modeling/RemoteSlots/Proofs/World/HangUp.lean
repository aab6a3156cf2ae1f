import RemoteSlots.Proofs.World.Registration
import RemoteSlots.Proofs.World.Upkeep

/-!
This module shows what a peer can still reach once it closed its side of a connection. Nobody accepts the
connection any more, and what was closed on the server's side stays closed. But a connection that was accepted
before stays open to its peer until the server closes its side, too.
-/

namespace RemoteSlots

open Std

namespace Loopback

def Grants (net : Loopback) (k : ConnectionId) (address : UInt64) (key : UInt32) (words : Nat)
    (granted : Access → Bool) : Prop :=
  ∃ link region, net.links[k]? = some link ∧ link.serverClosed = false ∧
    link.regions.find? (·.key = key) = some region ∧ granted region.access ∧
      region.covers address.toNat (4 * words)

/--
What becomes of the accesses of a peer through a connection that is open as far as `isOpen` tells.
-/
structure Answers (net : Loopback) (memory : Memory) (k : ConnectionId) (isOpen : Prop) : Prop where
  write : ∀ request address key words, (net.write memory k request address key words).1 = .ok () ↔
    isOpen ∧ net.Grants k address key words.length (·.remoteWrite)
  read : ∀ address key count, (∃ values, net.read memory k address key count = .ok values) ↔
    isOpen ∧ 4 * count.toNat < addressLimit ∧ net.Grants k address key count.toNat (·.remoteRead)
  -- A write that is accepted lands in a block, and counts.
  landed : ∀ request address key words, (net.write memory k request address key words).1 = .ok () →
    ∃ block, (net.write memory k request address key words).2.1 = memory.storeAt block address.toNat words ∧
      (net.write memory k request address key words).2.2.receivePsn k = net.receivePsn k + 1
  -- A write that is refused changes no word, and does not count.
  refused : ∀ request address key words failure, (net.write memory k request address key words).1 = .error failure →
    (∃ refusal, failure = .remoteAccess refusal) ∧
      (net.write memory k request address key words).2.1 = memory ∧
        (net.write memory k request address key words).2.2.receivePsn k = net.receivePsn k
  -- A read that is not answered is refused, unless the number of its bytes overflows.
  unread : ∀ address key count halt, net.read memory k address key count = .error halt →
    (∃ refusal, halt = .failed (.remoteAccess refusal)) ∨
      halt = .faulted ∧ isOpen ∧ addressLimit ≤ 4 * count.toNat ∧
        net.Grants k address key (count.toNat % 2 ^ 62) (·.remoteRead)

variable {net : Loopback} {memory : Memory} {k : ConnectionId} {link : Link}

theorem grants_iff (hlink : net.links[k]? = some link) {address : UInt64} {key : UInt32} {words : Nat}
    {granted : Access → Bool} (told : Nat) :
    net.Grants k address key words granted ↔
      ∃ region, target link address key told (4 * words) granted = .ok region := by
  simp only [Grants, hlink, Option.some.injEq, target_eq_ok_iff]
  constructor
  · rintro ⟨_, region, rfl, hgranted⟩
    exact ⟨region, hgranted⟩
  · rintro ⟨region, hgranted⟩
    exact ⟨link, region, rfl, hgranted⟩

theorem answers_grants (hlink : net.links[k]? = some link) : net.Answers memory k True where
  write := by
    intro request address key words
    rw [grants_iff hlink words.length, Loopback.write, hlink, true_and]
    dsimp only
    rcases target link address key words.length (4 * words.length) (·.remoteWrite) with failure | region <;> simp
  read := by
    intro address key count
    rw [true_and]
    constructor
    · rintro ⟨values, hread⟩
      rcases htarget : target link address key count.toNat (4 * (count.toNat % 2 ^ 62)) (·.remoteRead) with
        failure | region
      · rw [read_of_target_error hlink htarget] at hread
        contradiction
      · rw [read_of_target_ok hlink htarget] at hread
        split at hread
        · next hbytes =>
          rw [words_of_bytes_lt hbytes] at htarget
          exact ⟨hbytes, (grants_iff hlink count.toNat).mpr ⟨region, htarget⟩⟩
        · contradiction
    · rintro ⟨hbytes, hgrants⟩
      obtain ⟨region, htarget⟩ := (grants_iff hlink count.toNat).mp hgrants
      have htarget' : target link address key count.toNat (4 * (count.toNat % 2 ^ 62)) (·.remoteRead) = .ok region := by
        rw [words_of_bytes_lt hbytes]
        exact htarget
      rw [read_of_target_ok hlink htarget', if_pos hbytes]
      exact ⟨_, rfl⟩
  landed := by
    intro request address key words haccepted
    rw [Loopback.write, hlink] at haccepted ⊢
    dsimp only at haccepted ⊢
    rcases htarget : target link address key words.length (4 * words.length) (·.remoteWrite) with failure | region
    · rw [htarget] at haccepted
      contradiction
    · refine ⟨region.extent.block, rfl, ?_⟩
      simp only [receivePsn, getElem?_modifyLink, if_pos, hlink, Option.map_some]
  refused := by
    intro request address key words failure hrefused
    rw [Loopback.write, hlink] at hrefused ⊢
    dsimp only at hrefused ⊢
    rcases htarget : target link address key words.length (4 * words.length) (·.remoteWrite) with failure | region
    · rw [htarget] at hrefused
      injection hrefused with hrefused
      refine ⟨target_eq_error (hrefused ▸ htarget), rfl, ?_⟩
      simp only [receivePsn, getElem?_modifyLink, if_pos, hlink, Option.map_some, Link.psn_complete]
    · rw [htarget] at hrefused
      contradiction
  unread := by
    intro address key count halt hrefused
    rcases htarget : target link address key count.toNat (4 * (count.toNat % 2 ^ 62)) (·.remoteRead) with
      failure | region
    · rw [read_of_target_error hlink htarget] at hrefused
      obtain ⟨refusal, rfl⟩ := target_eq_error htarget
      exact .inl ⟨refusal, (Except.error.inj hrefused).symm⟩
    · rw [read_of_target_ok hlink htarget] at hrefused
      split at hrefused
      · contradiction
      · next hbytes =>
        refine .inr ⟨(Except.error.inj hrefused).symm, trivial, Nat.not_lt.mp hbytes, ?_⟩
        exact (grants_iff hlink count.toNat).mpr ⟨region, htarget⟩

theorem Answers.of_imp {isOpen : Prop} (h : net.Answers memory k True)
    (hopen : ∀ address key words granted, net.Grants k address key words granted → isOpen) :
    net.Answers memory k isOpen :=
  { h with
    write := fun request address key words => by
      rw [h.write, true_and, iff_and_self]
      exact hopen _ _ _ _
    read := fun address key count => by
      rw [h.read, true_and, iff_and_self]
      exact fun hread => hopen _ _ _ _ hread.2
    unread := fun address key count halt hrefused => by
      refine (h.unread address key count halt hrefused).imp_right ?_
      rintro ⟨hfaulted, -, hbytes, hgrants⟩
      exact ⟨hfaulted, hopen _ _ _ _ hgrants, hbytes, hgrants⟩ }

end Loopback

namespace World

variable {w : World} {k : ConnectionId} {link : Link}

theorem Reachable.accepted_of_grants (h : w.Reachable) {address : UInt64} {key : UInt32} {words : Nat}
    {granted : Access → Bool} (hgrants : w.net.Grants k address key words granted) :
    ∃ link, w.net.links[k]? = some link ∧ link.acceptedBy.isSome ∧ link.serverClosed = false := by
  obtain ⟨link, region, hlink, hopen, hfind, -⟩ := hgrants
  exact ⟨link, hlink, h.accepted.regions k link hlink region (List.mem_of_find?_eq_some hfind), hopen⟩

theorem access_after_hangUp (h : w.Reachable) (hlink : w.net.links[k]? = some link) (later : List Action) :
    ((w.act (.hangUp k)).after later).net.Answers ((w.act (.hangUp k)).after later).memory k
      (link.acceptedBy.isSome ∧ link.serverClosed = false) := by
  have hhung : (w.act (.hangUp k)).net.links[k]? = some { link with peerClosed := true } := by
    have hlinks : (w.act (.hangUp k)).net.links[k]? = _ := Loopback.hangUp_links w.net k k
    rw [hlinks, if_pos rfl, hlink, Option.map_some]
  have hreach : (w.act (.hangUp k)).Reachable := h.act _
  obtain ⟨link', hlink', hev⟩ := (hreach.evolves later).links k _ hhung
  refine (Loopback.answers_grants hlink').of_imp fun address key words granted hgrants => ?_
  obtain ⟨found, hfound, haccepted, hopen⟩ := (hreach.after later).accepted_of_grants hgrants
  obtain rfl : link' = found := Option.some.inj (hlink'.symm.trans hfound)
  constructor
  · rw [(hev.hungUp rfl).2] at haccepted
    exact haccepted
  · -- What was closed when the peer hung up would still be closed.
    rcases hclosed : link.serverClosed with _ | _
    · rfl
    · have hshut := (hev.closed ⟨hclosed, h.orderly.closed k link hlink hclosed⟩).1
      rw [hopen] at hshut
      contradiction

set_option maxRecDepth 10000 in
theorem access_after_hangUp_waiting :
    let w := sampleRegistered.act (.connect 7000)
    ∃ link, w.Reachable ∧ w.net.links[5]? = some link ∧ link.acceptedBy = none ∧
      ((w.act (.hangUp 5)).after [.write 5 0 4096 4 [7]]).net.Answers
        ((w.act (.hangUp 5)).after [.write 5 0 4096 4 [7]]).memory 5
        (link.acceptedBy.isSome ∧ link.serverClosed = false) := by
  intro w
  have hreach : w.Reachable := reachable_sampleRegistered.act _
  obtain ⟨link, hlink, hwaiting⟩ : ∃ link, w.net.links[5]? = some link ∧ link.acceptedBy = none := ⟨_, rfl, rfl⟩
  exact ⟨link, hreach, hlink, hwaiting, access_after_hangUp hreach hlink _⟩

set_option maxRecDepth 10000 in
theorem write_after_hangUp_accepted :
    let w := sampleRegistered.act (.hangUp 2)
    w.Reachable ∧ w.memory.word 0 0 = 0 ∧ (w.write 2 0 4096 4 [7]).1 = .ok () ∧
      (w.write 2 0 4096 4 [7]).2.memory.word 0 0 = 7 ∧ (w.write 2 0 4096 4 [7]).2.read 2 4096 4 1 = .ok [7] ∧
      (w.write 2 0 4096 4 [7]).2.net.receivePsn 2 = w.net.receivePsn 2 + 1 := by
  intro w
  have haccepted : (w.write 2 0 4096 4 [7]).1 = .ok () := by rfl
  have hword : (w.write 2 0 4096 4 [7]).2.memory.word 0 0 = 7 := by decide +kernel
  have hread : (w.write 2 0 4096 4 [7]).2.read 2 4096 4 1 = .ok [7] := by decide +kernel
  exact ⟨reachable_sampleRegistered.act _, by decide +kernel, haccepted, hword, hread, by decide +kernel⟩

end World

end RemoteSlots
