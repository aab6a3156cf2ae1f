import Mathlib.Algebra.Group.Nat.Defs
import RemoteSlots.Proofs.Fabric.Evolves

/-!
This module shows that peers keep the invariant of the loopback fabric, and what they do to a connection.
-/

namespace RemoteSlots

open Std

namespace Loopback

variable {net net' : Loopback}

theorem connect_eq_ok {port : UInt16} {id : ConnectionId} (h : net.connect port = .ok (id, net')) :
    id = net.lastId + 1 ∧ ∃ l link, net.listeners[port]? = some l ∧ link.IsFresh ∧
      link.channel = l.channel ∧
        net' = { net with
          lastId := net.lastId + 2
          links := net.links.insert id link
          pending := net.pending ++ [id] }.deliver l.channel
            { kind := .connectRequest, connection := id, status := 0 } := by
  unfold connect at h
  split at h
  · contradiction
  · next l hl =>
    split at h
    · simp only [Except.ok.injEq, Prod.mk.injEq] at h
      obtain ⟨rfl, rfl⟩ := h
      refine ⟨rfl, l, _, hl, ?_, rfl, rfl⟩
      exact ⟨rfl, rfl, rfl, rfl, by simp⟩
    · contradiction

theorem Sound.not_mem_links (h : net.Sound) {k : ConnectionId} (hk : net.lastId < k) :
    net.links[k]? = none := by
  rcases hlink : net.links[k]? with _ | link
  · rfl
  · exact absurd (h.link_bounds k link hlink).2 (Nat.not_le_of_lt hk)

theorem Sound.connect (h : net.Sound) {port : UInt16} {id : ConnectionId}
    (hconnect : net.connect port = .ok (id, net')) : net'.Sound := by
  obtain ⟨rfl, l, link, hl, hfresh, hchannel, rfl⟩ := connect_eq_ok hconnect
  have hnone := h.not_mem_links (Nat.lt_succ_self _)
  have hlinks : ∀ k : ConnectionId, (net.links.insert (net.lastId + 1) link)[k]? =
      if net.lastId + 1 = k then some link else net.links[k]? := by
    intro k
    rw [TreeMap.getElem?_insert]
    simp only [Std.compare_eq_iff_eq]
  apply Sound.deliver
  · constructor
    · intro c channel hc
      exact Nat.le_add_right_of_le (h.channel_le c channel hc)
    · intro k link' hk
      rw [hlinks] at hk
      have hbounds := h.link_bounds k link'
      change 0 < k ∧ k ≤ net.lastId + 2
      split at hk
      · next heq =>
        rw [← heq]
        exact ⟨Nat.succ_pos _, Nat.le_succ _⟩
      · exact ⟨(hbounds hk).1, Nat.le_add_right_of_le (hbounds hk).2⟩
    · exact h.listener
    · exact h.bound
    · intro c channel event hc hevent hkind hne
      obtain ⟨link', hlink', heq⟩ := h.asked c channel event hc hevent hkind hne
      refine ⟨link', ?_, heq⟩
      rw [hlinks, if_neg, hlink']
      intro heq
      rw [← heq, hnone] at hlink'
      contradiction
    · intro k hk
      rw [hlinks]
      rcases List.mem_append.mp hk with hold | hnew
      · obtain ⟨link', hlink', hfresh', hsome⟩ := h.pending k hold
        refine ⟨link', ?_, hfresh', hsome⟩
        rw [if_neg, hlink']
        intro heq
        rw [← heq, hnone] at hlink'
        contradiction
      · obtain rfl := List.mem_singleton.mp hnew
        refine ⟨link, if_pos rfl, hfresh, ?_⟩
        obtain ⟨channel, hc, -⟩ := h.listener port l hl
        rw [hchannel, hc]
        rfl
    · refine List.nodup_append.mpr ⟨h.nodup, by simp, ?_⟩
      rintro k hk j hj rfl
      obtain ⟨link', hlink', -⟩ := h.pending k hk
      rw [List.mem_singleton.mp hj, hnone] at hlink'
      contradiction
  · intro _ _
    exact ⟨link, (hlinks _).trans (if_pos rfl), hchannel⟩

theorem connect_links (h : net.Sound) {port : UInt16} {id k : ConnectionId} {link : Link}
    (hconnect : net.connect port = .ok (id, net')) (hlink : net.links[k]? = some link) :
    net'.links[k]? = some link := by
  obtain ⟨rfl, l, fresh, -, -, -, rfl⟩ := connect_eq_ok hconnect
  have hle := (h.link_bounds k link hlink).2
  refine TreeMap.getElem?_insert.trans ?_
  rw [if_neg, hlink]
  rw [Std.compare_eq_iff_eq]
  exact Nat.ne_of_gt (Nat.lt_succ_of_le hle)

theorem connect_links_cases {port : UInt16} {id k : ConnectionId} {link : Link}
    (hconnect : net.connect port = .ok (id, net')) (hlink : net'.links[k]? = some link) :
    net.links[k]? = some link ∨ link.IsFresh := by
  obtain ⟨rfl, l, fresh, -, hfresh, -, rfl⟩ := connect_eq_ok hconnect
  have hlink := TreeMap.getElem?_insert.symm.trans hlink
  split at hlink
  · injection hlink with hlink
    exact .inr (hlink ▸ hfresh)
  · exact .inl hlink

theorem Evolves.connect (h : net.Sound) {port : UInt16} {id : ConnectionId}
    (hconnect : net.connect port = .ok (id, net')) : net.Evolves net' where
  lastId_le := by
    obtain ⟨rfl, l, fresh, -, -, -, rfl⟩ := connect_eq_ok hconnect
    exact Nat.le_add_right ..
  links := fun _ link hlink => ⟨link, connect_links h hconnect hlink, .refl link⟩
  channels := by
    obtain ⟨rfl, l, fresh, -, -, -, rfl⟩ := connect_eq_ok hconnect
    intro c _ hnone
    rw [getElem?_deliver]
    split <;> simp [hnone]
  pending := by
    obtain ⟨rfl, l, fresh, -, -, -, rfl⟩ := connect_eq_ok hconnect
    intro k hk
    rcases List.mem_append.mp hk with hold | hnew
    · exact .inl hold
    · exact .inr (List.mem_singleton.mp hnew ▸ Nat.lt_succ_self _)

theorem inject_eq_ok {port : UInt16} {kind : EventKind} {status : Int}
    (h : net.inject port kind status = .ok net') :
    ∃ channel, net' = net.deliver channel { kind, connection := 0, status } := by
  unfold inject at h
  split at h
  · contradiction
  · injection h with h
    exact ⟨_, h.symm⟩

theorem Sound.inject (h : net.Sound) {port : UInt16} {kind : EventKind} {status : Int}
    (hinject : net.inject port kind status = .ok net') : net'.Sound := by
  obtain ⟨channel, rfl⟩ := inject_eq_ok hinject
  exact h.deliver fun _ hne => absurd rfl hne

theorem Evolves.inject {port : UInt16} {kind : EventKind} {status : Int}
    (hinject : net.inject port kind status = .ok net') : net.Evolves net' := by
  obtain ⟨channel, rfl⟩ := inject_eq_ok hinject
  exact .deliver ..

variable {memory : Memory}

theorem receive_links (net : Loopback) (id k : ConnectionId) (limit : Duration) :
    (net.receive id limit).2.links[k]? =
      if id = k then net.links[k]?.map fun link => { link with inbox := link.inbox.tail }
      else net.links[k]? := by
  unfold receive
  split
  · next hnone =>
    split
    · next heq => rw [← heq, hnone, Option.map_none]
    · rfl
  · next link hlink =>
    split
    · next hempty =>
      split
      · next heq => rw [← heq, hlink, Option.map_some, hempty, List.tail_nil, ← hempty]
      · rfl
    · exact getElem?_modifyLink ..

theorem Evolves.receive (net : Loopback) (id : ConnectionId) (limit : Duration) :
    net.Evolves (net.receive id limit).2 := by
  unfold Loopback.receive
  split
  · exact .refl net
  · split
    · exact .refl net
    · exact .modifyLink fun link _ => ⟨rfl, fun h => h, fun h => h, fun h => ⟨h, rfl⟩⟩

theorem Sound.receive (h : net.Sound) (id : ConnectionId) (limit : Duration) :
    (net.receive id limit).2.Sound := by
  unfold Loopback.receive
  split
  · exact h
  · split
    · exact h
    · apply h.modifyLink
      · intro _ _
        rfl
      · intro _ link hfresh
        refine ⟨hfresh.regions, ?_, hfresh.acceptedBy, hfresh.serverClosed, hfresh.completions⟩
        simp [hfresh.inbox]

def writeEffect (request address : UInt64) (key : UInt32) (words : Nat) (link : Link) : Link :=
  match target link address key words (4 * words) (·.remoteWrite) with
  | .ok _ => { link with psn := link.psn + 1 }
  | .error _ => link.complete { request, status := .remoteAccessError, opcode := .remoteWrite }

theorem regions_writeEffect (request address : UInt64) (key : UInt32) (words : Nat) (link : Link) :
    (writeEffect request address key words link).regions = link.regions := by
  unfold writeEffect
  split
  · rfl
  · exact Link.regions_complete ..

/--
The region that an attempt to write goes to, if the write is accepted.
-/
def target? (net : Loopback) (id : ConnectionId) (address : UInt64) (key : UInt32) (words : Nat) :
    Option Registration :=
  net.links[id]?.bind fun link => (target link address key words (4 * words) (·.remoteWrite)).toOption

theorem target_eq_ok_iff {link : Link} {address : UInt64} {key : UInt32} {words bytes : Nat}
    {granted : Access → Bool} {region : Registration} :
    target link address key words bytes granted = .ok region ↔
      link.serverClosed = false ∧ link.regions.find? (·.key = key) = some region ∧ granted region.access ∧
        region.covers address.toNat bytes := by
  unfold target
  split
  · next hclosed => simp [hclosed]
  · next hopen =>
    split
    · next hnone => simp [hnone]
    · next found hfound =>
      rw [hfound]
      split
      · next hdenied => grind
      · split
        · next houtside => grind
        · next hgranted hcovers => grind

theorem target_eq_ok {link : Link} {address : UInt64} {key : UInt32} {words bytes : Nat}
    {granted : Access → Bool} {region : Registration}
    (h : target link address key words bytes granted = .ok region) :
    link.serverClosed = false ∧ region ∈ link.regions ∧ region.covers address.toNat bytes := by
  obtain ⟨hopen, hfind, -, hcovers⟩ := target_eq_ok_iff.mp h
  exact ⟨hopen, List.mem_of_find?_eq_some hfind, hcovers⟩

theorem target_eq_error {link : Link} {address : UInt64} {key : UInt32} {words bytes : Nat}
    {granted : Access → Bool} {failure : Failure}
    (h : target link address key words bytes granted = .error failure) :
    ∃ refusal, failure = .remoteAccess refusal := by
  unfold target at h
  split at h
  · exact ⟨_, (Except.error.inj h).symm⟩
  · split at h
    · exact ⟨_, (Except.error.inj h).symm⟩
    · split at h
      · exact ⟨_, (Except.error.inj h).symm⟩
      · split at h
        · exact ⟨_, (Except.error.inj h).symm⟩
        · contradiction

theorem toNat_bytes (count : UInt64) : (4 * count).toNat = 4 * (count.toNat % 2 ^ 62) := by
  rw [UInt64.toNat_mul]
  exact Nat.mul_mod_mul_left 4 count.toNat (2 ^ 62)

theorem words_of_bytes_lt {count : UInt64} (hbytes : 4 * count.toNat < addressLimit) :
    count.toNat % 2 ^ 62 = count.toNat := by
  have hlimit : addressLimit = 4 * 2 ^ 62 := rfl
  exact Nat.mod_eq_of_lt (by omega)

theorem read_of_target_ok {memory : Memory} {id : ConnectionId} {link : Link} {address count : UInt64} {key : UInt32}
    {region : Registration} (hlink : net.links[id]? = some link)
    (htarget : target link address key count.toNat (4 * (count.toNat % 2 ^ 62)) (·.remoteRead) = .ok region) :
    net.read memory id address key count =
      if 4 * count.toNat < addressLimit then .ok (memory.loadAt region.extent.block address.toNat count.toNat)
      else .error .faulted := by
  rw [Loopback.read, hlink]
  dsimp only
  rw [toNat_bytes, htarget]

theorem read_of_target_error {memory : Memory} {id : ConnectionId} {link : Link} {address count : UInt64}
    {key : UInt32} {failure : Failure} (hlink : net.links[id]? = some link)
    (htarget : target link address key count.toNat (4 * (count.toNat % 2 ^ 62)) (·.remoteRead) = .error failure) :
    net.read memory id address key count = .error (.failed failure) := by
  rw [Loopback.read, hlink]
  dsimp only
  rw [toNat_bytes, htarget]

theorem target?_eq_some {id : ConnectionId} {address : UInt64} {key : UInt32} {words : Nat}
    {region : Registration} (h : net.target? id address key words = some region) :
    ∃ link, net.links[id]? = some link ∧ link.serverClosed = false ∧ region ∈ link.regions ∧
      region.covers address.toNat (4 * words) := by
  unfold target? at h
  rw [Option.bind_eq_some_iff] at h
  obtain ⟨link, hlink, htarget⟩ := h
  rcases hok : target link address key words (4 * words) (·.remoteWrite) with failure | found
  · rw [hok] at htarget
    contradiction
  · rw [hok] at htarget
    injection htarget with htarget
    subst htarget
    exact ⟨link, hlink, target_eq_ok hok⟩

variable (net) (memory) (id k : ConnectionId) (request address : UInt64) (key : UInt32)
  (words : List UInt32)

theorem write_links :
    (net.write memory id request address key words).2.2.links[k]? =
      if id = k then net.links[k]?.map (writeEffect request address key words.length)
      else net.links[k]? := by
  unfold write
  rcases hlink : net.links[id]? with _ | link
  · dsimp only
    split
    · next heq => rw [← heq, hlink, Option.map_none]
    · rfl
  · dsimp only
    split
    · next region hregion =>
      rw [getElem?_modifyLink]
      split
      · next heq => rw [← heq, hlink, Option.map_some, Option.map_some, writeEffect, hregion]
      · rfl
    · next failure hfailure =>
      rw [getElem?_modifyLink]
      split
      · next heq => rw [← heq, hlink, Option.map_some, Option.map_some, writeEffect, hfailure]
      · rfl

theorem write_memory :
    (net.write memory id request address key words).2.1 =
      match net.target? id address key words.length with
      | some region => memory.storeAt region.extent.block address.toNat words
      | none => memory := by
  unfold write target?
  rcases hlink : net.links[id]? with _ | link
  · rfl
  · rw [Option.bind_some]
    dsimp only
    split
    · next region hregion =>
      rw [hregion]
      rfl
    · next failure hfailure =>
      rw [hfailure]
      rfl

theorem Evolves.write : net.Evolves (net.write memory id request address key words).2.2 := by
  unfold Loopback.write
  split
  · exact .refl net
  · split
    · exact .modifyLink fun link _ => ⟨rfl, fun h => h, fun h => h, fun h => ⟨h, rfl⟩⟩
    · exact .modifyLink fun link _ => .complete link _

theorem Sound.write (h : net.Sound) : (net.write memory id request address key words).2.2.Sound := by
  unfold Loopback.write
  split
  · exact h
  · next link hlink =>
    split
    · apply h.modifyLink
      · intro _ _
        rfl
      · intro _ link hfresh
        exact ⟨hfresh.regions, hfresh.inbox, hfresh.acceptedBy, hfresh.serverClosed, hfresh.completions⟩
    · apply h.modifyLink
      · intro link _
        exact Link.channel_complete link _
      · intro _ link hfresh
        apply hfresh.complete
        simp

theorem hangUp_links :
    (net.hangUp id).links[k]? =
      if id = k then net.links[k]?.map fun link => { link with peerClosed := true }
      else net.links[k]? := by
  have hmodify : (net.modifyLink id fun link => { link with peerClosed := true }).links[k]? = _ :=
    getElem?_modifyLink ..
  unfold hangUp
  rcases hlink : net.links[id]? with _ | link
  · dsimp only
    split
    · next heq => rw [← heq, hlink, Option.map_none]
    · rfl
  · dsimp only
    split
    · next hclosed =>
      split
      · next heq => rw [← heq, hlink, Option.map_some, ← hclosed]
      · rfl
    · split
      · exact hmodify
      · exact hmodify

theorem Evolves.hangUp : net.Evolves (net.hangUp id) := by
  have hmodify : net.Evolves (net.modifyLink id fun link => { link with peerClosed := true }) :=
    .modifyLink fun link _ => ⟨rfl, fun h => h, fun h => h, fun _ => ⟨rfl, rfl⟩⟩
  unfold Loopback.hangUp
  split
  · exact .refl net
  · split
    · exact .refl net
    · dsimp only
      split
      · exact hmodify
      · exact hmodify.trans (.deliver ..)

theorem Sound.hangUp (h : net.Sound) : (net.hangUp id).Sound := by
  have hmodify : (net.modifyLink id fun link => { link with peerClosed := true }).Sound := by
    apply h.modifyLink
    · intro _ _
      rfl
    · intro _ link hfresh
      exact ⟨hfresh.regions, hfresh.inbox, hfresh.acceptedBy, hfresh.serverClosed, hfresh.completions⟩
  unfold Loopback.hangUp
  split
  · exact h
  · split
    · exact h
    · dsimp only
      split
      · exact hmodify
      · apply hmodify.deliver
        intro hkind
        contradiction

end Loopback

end RemoteSlots
