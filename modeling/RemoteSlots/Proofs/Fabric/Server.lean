import RemoteSlots.Proofs.Fabric.Evolves

/-!
This module shows that the loopback fabric keeps its invariant whatever it is asked, and what a request
leaves alone: everything that belongs to other channels and to other endpoints.
-/

namespace RemoteSlots

open Std

namespace Loopback

variable {net : Loopback}

theorem getElem?_createChannel (net : Loopback) (c : ChannelId) :
    net.createChannel.2.channels[c]? =
      if net.lastId + 1 = c then some { port := none, events := [] } else net.channels[c]? := by
  unfold Loopback.createChannel
  rw [TreeMap.getElem?_insert]
  simp only [Nat.compare_eq_eq]

theorem Sound.createChannel (h : net.Sound) : net.createChannel.2.Sound where
  channel_le := by
    intro c channel hc
    have hle := h.channel_le c
    rw [getElem?_createChannel] at hc
    change c ≤ net.lastId + 1
    grind
  link_bounds := by
    intro k link hk
    have hbounds := h.link_bounds k link hk
    exact ⟨hbounds.1, Nat.le_succ_of_le hbounds.2⟩
  listener := by
    intro port l hl
    obtain ⟨channel, hchannel, hport⟩ := h.listener port l hl
    have hle := h.channel_le _ _ hchannel
    refine ⟨channel, ?_, hport⟩
    rw [getElem?_createChannel, if_neg (Nat.ne_of_gt (Nat.lt_succ_of_le hle)), hchannel]
  bound := by
    intro c channel port hc hport
    have hbound := h.bound c
    rw [getElem?_createChannel] at hc
    change ∃ l, net.listeners[port]? = some l ∧ l.channel = c
    grind
  asked := by
    intro c channel event hc hevent
    have hasked := h.asked c
    rw [getElem?_createChannel] at hc
    change net.Asked c event
    grind
  pending := by
    intro k hk
    obtain ⟨link, hlink, hfresh, hsome⟩ := h.pending k hk
    refine ⟨link, hlink, hfresh, ?_⟩
    rw [getElem?_createChannel]
    split
    · rfl
    · exact hsome
  nodup := h.nodup

theorem Evolves.createChannel (net : Loopback) : net.Evolves net.createChannel.2 where
  lastId_le := Nat.le_succ _
  links := fun _ link h => ⟨link, h, .refl link⟩
  channels := by
    intro c hle hnone
    rw [getElem?_createChannel, if_neg (Nat.ne_of_gt (Nat.lt_succ_of_le hle)), hnone]
  pending := fun _ h => .inl h

theorem Sound.bind (h : net.Sound) {channel : ChannelId} {port : UInt16} {net' : Loopback}
    (hbind : net.bind channel port = .ok net') : net'.Sound := by
  unfold Loopback.bind at hbind
  split at hbind
  · contradiction
  · next c hc =>
    split at hbind
    · contradiction
    · next hport =>
      split at hbind
      · contradiction
      · next hfree =>
        injection hbind with hbind
        subst hbind
        have hfree : net.listeners[port]? = none := by simpa using hfree
        constructor
        · intro d channel' hd
          have hle := h.channel_le
          simp only [TreeMap.getElem?_insert, Nat.compare_eq_eq] at hd
          grind
        · exact h.link_bounds
        · intro other l hl
          have hlistener := h.listener
          simp only [TreeMap.getElem?_insert, Std.compare_eq_iff_eq] at hl ⊢
          grind
        · intro d channel' other hd hother
          simp only [TreeMap.getElem?_insert, Std.compare_eq_iff_eq] at hd ⊢
          split at hd
          · next heq =>
            injection hd with hd
            subst hd
            injection hother with hother
            exact ⟨_, if_pos hother, heq⟩
          · obtain ⟨l, hl, hchannel⟩ := h.bound d channel' other hd hother
            have hne : port ≠ other := by
              rintro rfl
              rw [hfree] at hl
              contradiction
            exact ⟨l, (if_neg hne).trans hl, hchannel⟩
        · intro d channel' event hd hevent
          have hasked := h.asked
          simp only [TreeMap.getElem?_insert, Nat.compare_eq_eq] at hd
          change net.Asked d event
          grind
        · intro k hk
          obtain ⟨link, hlink, hfresh, hsome⟩ := h.pending k hk
          refine ⟨link, hlink, hfresh, ?_⟩
          simp only [TreeMap.getElem?_insert]
          split <;> simp_all
        · exact h.nodup

theorem Evolves.bind {channel : ChannelId} {port : UInt16} {net' : Loopback}
    (hbind : net.bind channel port = .ok net') : net.Evolves net' := by
  unfold Loopback.bind at hbind
  split at hbind
  · contradiction
  · next c hc =>
    split at hbind
    · contradiction
    · split at hbind
      · contradiction
      · injection hbind with hbind
        subst hbind
        refine ⟨Nat.le_refl _, fun _ link h => ⟨link, h, .refl link⟩, ?_, fun _ h => .inl h⟩
        intro d _ hnone
        simp only [TreeMap.getElem?_insert, Std.compare_eq_iff_eq]
        grind

theorem Sound.listen (h : net.Sound) {channel : ChannelId} {net' : Loopback}
    (hlisten : net.listen channel = .ok net') : net'.Sound := by
  unfold Loopback.listen at hlisten
  split at hlisten
  · contradiction
  · next c hc =>
    split at hlisten
    · contradiction
    · next port hport =>
      split at hlisten
      · next l hl =>
        split at hlisten
        · next hchannel =>
          injection hlisten with hlisten
          subst hlisten
          refine ⟨h.channel_le, h.link_bounds, ?_, ?_, h.asked, h.pending, h.nodup⟩
          · intro other l' hl'
            have hlistener := h.listener
            simp only [TreeMap.getElem?_insert, Std.compare_eq_iff_eq] at hl'
            grind
          · intro d channel' other hd hother
            obtain ⟨l', hl', hchannel'⟩ := h.bound d channel' other hd hother
            simp only [TreeMap.getElem?_insert, Std.compare_eq_iff_eq]
            split
            · next heq =>
              subst heq
              rw [hl] at hl'
              injection hl' with hl'
              subst hl'
              exact ⟨_, rfl, hchannel'⟩
            · exact ⟨l', hl', hchannel'⟩
        · contradiction
      · contradiction

theorem Evolves.listen {channel : ChannelId} {net' : Loopback}
    (hlisten : net.listen channel = .ok net') : net.Evolves net' := by
  unfold Loopback.listen at hlisten
  split at hlisten
  · contradiction
  · split at hlisten
    · contradiction
    · split at hlisten
      · split at hlisten
        · injection hlisten with hlisten
          subst hlisten
          exact ⟨Nat.le_refl _, fun _ link h => ⟨link, h, .refl link⟩, fun _ _ h => h, fun _ h => .inl h⟩
        · contradiction
      · contradiction

theorem Sound.nextEvent (h : net.Sound) (channel : ChannelId) : (net.nextEvent channel).2.Sound := by
  unfold Loopback.nextEvent
  split
  · exact h
  · next c hc =>
    split
    · exact h
    · next event events hevents =>
      constructor
      · intro d channel' hd
        have hle := h.channel_le
        simp only [TreeMap.getElem?_insert, Std.compare_eq_iff_eq] at hd
        grind
      · exact h.link_bounds
      · intro port l hl
        obtain ⟨channel', hchannel', hport⟩ := h.listener port l hl
        simp only [TreeMap.getElem?_insert, Std.compare_eq_iff_eq]
        grind
      · intro d channel' port hd hport
        have hbound := h.bound
        simp only [TreeMap.getElem?_insert, Std.compare_eq_iff_eq] at hd
        grind
      · intro d channel' other hd hother
        have hasked := h.asked
        simp only [TreeMap.getElem?_insert, Std.compare_eq_iff_eq] at hd
        change net.Asked d other
        grind
      · intro k hk
        obtain ⟨link, hlink, hfresh, hsome⟩ := h.pending k hk
        refine ⟨link, hlink, hfresh, ?_⟩
        simp only [TreeMap.getElem?_insert]
        split
        · rfl
        · exact hsome
      · exact h.nodup

theorem Evolves.nextEvent (net : Loopback) (channel : ChannelId) :
    net.Evolves (net.nextEvent channel).2 := by
  unfold Loopback.nextEvent
  split
  · exact .refl net
  · split
    · exact .refl net
    · refine ⟨Nat.le_refl _, fun _ link h => ⟨link, h, .refl link⟩, ?_, fun _ h => .inl h⟩
      intro d _ hnone
      simp only [TreeMap.getElem?_insert, Std.compare_eq_iff_eq]
      grind

theorem Sound.erase (h : net.Sound) (k : ConnectionId) :
    { net with pending := net.pending.erase k }.Sound :=
  ⟨h.channel_le, h.link_bounds, h.listener, h.bound, h.asked,
    fun j hj => h.pending j (List.mem_of_mem_erase hj), h.nodup.erase k⟩

theorem Evolves.erase (net : Loopback) (k : ConnectionId) :
    net.Evolves { net with pending := net.pending.erase k } :=
  ⟨Nat.le_refl _, fun _ link h => ⟨link, h, .refl link⟩, fun _ _ h => h,
    fun _ hj => .inl (List.mem_of_mem_erase hj)⟩

theorem accept_cases (net : Loopback) (channel : ChannelId) (k : ConnectionId) (queues : QueueSizes) :
    (∃ failure, net.accept channel k queues = (.error failure, net)) ∨
      (∃ failure, net.accept channel k queues =
        (.error failure, { net with pending := net.pending.erase k })) ∨
      ∃ link, net.links[k]? = some link ∧ k ∈ net.pending ∧ link.peerClosed = false ∧
        net.accept channel k queues =
          (.ok { handle := k, queuePair := link.queuePair },
            ({ net with pending := net.pending.erase k }.modifyLink k fun link =>
              { link with
                queueSize := queues.completions.toNat
                acceptedBy := some channel }).deliver channel
                  { kind := .established, connection := k, status := 0 }) := by
  unfold Loopback.accept
  rcases hlink : net.links[k]? with _ | link
  · exact .inl ⟨_, rfl⟩
  · dsimp only
    by_cases hmem : k ∈ net.pending
    · rw [if_pos hmem]
      by_cases hclosed : link.peerClosed
      · rw [if_pos hclosed]
        exact .inr (.inl ⟨_, rfl⟩)
      · rw [if_neg hclosed]
        exact .inr (.inr ⟨link, rfl, hmem, by simpa using hclosed, rfl⟩)
    · rw [if_neg hmem]
      exact .inl ⟨_, rfl⟩

theorem Sound.accept (h : net.Sound) (channel : ChannelId) (k : ConnectionId) (queues : QueueSizes) :
    (net.accept channel k queues).2.Sound := by
  rcases accept_cases net channel k queues with ⟨_, heq⟩ | ⟨_, heq⟩ | ⟨link, -, -, -, heq⟩
  · rw [heq]
    exact h
  · rw [heq]
    exact h.erase k
  · rw [heq]
    apply Sound.deliver
    · apply Sound.modifyLink (h.erase k)
      · intro _ _
        rfl
      · intro hmem
        exact absurd hmem h.nodup.not_mem_erase
    · intro hkind
      contradiction

theorem Evolves.accept (net : Loopback) (channel : ChannelId) (k : ConnectionId)
    (queues : QueueSizes) : net.Evolves (net.accept channel k queues).2 := by
  rcases accept_cases net channel k queues with ⟨_, heq⟩ | ⟨_, heq⟩ | ⟨link, hlink, -, hopen, heq⟩
  · rw [heq]
    exact .refl net
  · rw [heq]
    exact .erase net k
  · rw [heq]
    refine .trans (.erase net k) (.trans (.modifyLink ?_) (.deliver ..))
    intro link' hlink'
    obtain rfl : link = link' := by simpa [hlink] using hlink'
    exact ⟨rfl, fun _ => rfl, fun h => h, fun hclosed => by rw [hopen] at hclosed; contradiction⟩

theorem getElem?_closeChannel (net : Loopback) (channel c : ChannelId) :
    (net.closeChannel channel).channels[c]? = if channel = c then none else net.channels[c]? := by
  unfold Loopback.closeChannel
  split
  · next hnone =>
    split
    · next heq => rw [← heq, hnone]
    · rfl
  · rw [TreeMap.getElem?_erase]
    simp only [Std.compare_eq_iff_eq]

theorem links_closeChannel (net : Loopback) (channel : ChannelId) :
    (net.closeChannel channel).links = net.links := by
  unfold Loopback.closeChannel
  split <;> rfl

theorem lastId_closeChannel (net : Loopback) (channel : ChannelId) :
    (net.closeChannel channel).lastId = net.lastId := by
  unfold Loopback.closeChannel
  split <;> rfl

theorem mem_pending_closeChannel (h : net.Sound) (channel : ChannelId) (k : ConnectionId) :
    k ∈ (net.closeChannel channel).pending ↔
      k ∈ net.pending ∧ ∀ link, net.links[k]? = some link → link.channel ≠ channel := by
  unfold Loopback.closeChannel
  split
  · next hnone =>
    refine ⟨fun hk => ⟨hk, ?_⟩, fun hk => hk.1⟩
    rintro link hlink rfl
    obtain ⟨link', hlink', -, hsome⟩ := h.pending k hk
    rw [hlink] at hlink'
    injection hlink' with hlink'
    subst hlink'
    rw [hnone] at hsome
    contradiction
  · cases hlink : net.links[k]? <;> simp [hlink]

theorem getElem?_listeners_closeChannel (h : net.Sound) (channel : ChannelId) (port : UInt16)
    (l : Listener) :
    (net.closeChannel channel).listeners[port]? = some l ↔
      net.listeners[port]? = some l ∧ l.channel ≠ channel := by
  unfold Loopback.closeChannel
  split
  · next hnone =>
    refine ⟨fun hl => ⟨hl, ?_⟩, fun hl => hl.1⟩
    rintro rfl
    obtain ⟨c, hc, -⟩ := h.listener port l hl
    rw [hnone] at hc
    contradiction
  · next c hc =>
    have hlistener := h.listener port l
    split
    · grind
    · next held hheld =>
      split
      · next hany =>
        simp only [TreeMap.getElem?_erase, Std.compare_eq_iff_eq]
        simp only [Option.any_eq_true, decide_eq_true_eq] at hany
        grind
      · next hany =>
        simp only [Option.any_eq_true, decide_eq_true_eq] at hany
        grind

theorem Sound.closeChannel (h : net.Sound) (channel : ChannelId) :
    (net.closeChannel channel).Sound where
  channel_le := by
    intro c c' hc
    rw [getElem?_closeChannel] at hc
    rw [lastId_closeChannel]
    have hle := h.channel_le c
    grind
  link_bounds := by
    rw [links_closeChannel, lastId_closeChannel]
    exact h.link_bounds
  listener := by
    intro port l hl
    rw [getElem?_listeners_closeChannel h] at hl
    obtain ⟨c, hc, hport⟩ := h.listener port l hl.1
    refine ⟨c, ?_, hport⟩
    rw [getElem?_closeChannel, if_neg (Ne.symm hl.2), hc]
  bound := by
    intro c c' port hc hport
    rw [getElem?_closeChannel] at hc
    split at hc
    · contradiction
    · next hne =>
      obtain ⟨l, hl, rfl⟩ := h.bound c c' port hc hport
      exact ⟨l, (getElem?_listeners_closeChannel h ..).mpr ⟨hl, Ne.symm hne⟩, rfl⟩
  asked := by
    intro c c' event hc hevent
    rw [getElem?_closeChannel] at hc
    split at hc
    · contradiction
    · unfold Asked
      rw [links_closeChannel]
      exact h.asked c c' event hc hevent
  pending := by
    intro k hk
    rw [mem_pending_closeChannel h] at hk
    obtain ⟨link, hlink, hfresh, hsome⟩ := h.pending k hk.1
    refine ⟨link, (links_closeChannel net channel).symm ▸ hlink, hfresh, ?_⟩
    rw [getElem?_closeChannel, if_neg (Ne.symm (hk.2 link hlink))]
    exact hsome
  nodup := by
    unfold Loopback.closeChannel
    split
    · exact h.nodup
    · exact h.nodup.filter _

theorem Evolves.closeChannel (net : Loopback) (channel : ChannelId) :
    net.Evolves (net.closeChannel channel) where
  lastId_le := Nat.le_of_eq (lastId_closeChannel net channel).symm
  links := by
    rw [links_closeChannel]
    exact fun _ link h => ⟨link, h, .refl link⟩
  channels := by
    intro c _ hnone
    rw [getElem?_closeChannel, hnone, ite_self]
  pending := by
    intro k hk
    unfold Loopback.closeChannel at hk
    split at hk
    · exact .inl hk
    · exact .inl (List.mem_filter.mp hk).1

theorem Sound.grow (h : net.Sound) (n : Nat) : { net with lastId := net.lastId + n }.Sound :=
  ⟨fun c channel hc => Nat.le_add_right_of_le (h.channel_le c channel hc),
    fun k link hk => ⟨(h.link_bounds k link hk).1, Nat.le_add_right_of_le (h.link_bounds k link hk).2⟩,
    h.listener, h.bound, h.asked, h.pending, h.nodup⟩

theorem Evolves.grow (net : Loopback) (n : Nat) : net.Evolves { net with lastId := net.lastId + n } :=
  ⟨Nat.le_add_right .., fun _ link h => ⟨link, h, .refl link⟩, fun _ _ h => h, fun _ h => .inl h⟩

theorem serve_endpoint (net : Loopback) (memory : Memory) (request : Request) {k : ConnectionId}
    (hk : .endpoint k ∈ request.handles) :
    (net.serve memory request).2 = net ∨ ∃ (n : Nat) (f : Link → Link),
      (net.serve memory request).2 = { net with lastId := net.lastId + n }.modifyLink k f ∧
        ∀ link, net.links[k]? = some link → link.Evolves (f link) ∧ link.SameStanding (f link) ∧
          ∀ r ∈ (f link).regions, r ∈ link.regions ∨ .block r.extent.block ∈ request.handles := by
  cases request with
  | createChannel => simp [Request.handles] at hk
  | bind | listen | nextEvent | accept | closeChannel => simp [Request.handles] at hk
  | register endpoint extent access =>
    obtain rfl : k = endpoint.handle := by simpa [Request.handles] using hk
    simp only [serve, Loopback.register]
    rcases hlink : net.links[endpoint.handle]? with _ | link
    · exact .inl rfl
    · dsimp only
      by_cases hclosed : link.serverClosed
      · rw [if_pos hclosed]
        exact .inl rfl
      · rw [if_neg hclosed]
        by_cases halign : extent.address % 4 ≠ 0
        · rw [if_pos halign]
          exact .inl rfl
        · rw [if_neg halign]
          refine .inr ⟨1, _, rfl, ?_⟩
          intro link' hlink'
          obtain rfl : link = link' := by simpa using hlink'
          refine ⟨⟨rfl, fun h => h, fun h => absurd h.1 hclosed, fun h => ⟨h, rfl⟩⟩, ⟨rfl, rfl, rfl⟩, ?_⟩
          intro r hr
          simp only [List.mem_append, List.mem_singleton] at hr
          rcases hr with hold | rfl
          · exact .inl hold
          · exact .inr (by simp [Request.handles])
  | deregister endpoint keys =>
    obtain rfl : k = endpoint.handle := by simpa [Request.handles] using hk
    simp only [serve, Loopback.deregister, answer]
    split
    · next net' hnet =>
      split at hnet
      · contradiction
      · split at hnet
        · injection hnet with hnet
          subst hnet
          refine .inr ⟨0, _, rfl, fun link _ =>
            ⟨⟨rfl, fun h => h, fun h => ⟨h.1, ?_⟩, fun h => ⟨h, rfl⟩⟩, ⟨rfl, rfl, rfl⟩, ?_⟩⟩
          · simp [h.2]
          · exact fun r hr => .inl (List.mem_filter.mp hr).1
        · contradiction
    · exact .inl rfl
  | send endpoint id element signaled =>
    obtain rfl : k = endpoint.handle := by simpa [Request.handles] using hk
    simp only [serve, Loopback.send, answer]
    split
    · next net' hnet =>
      split at hnet
      · contradiction
      · split at hnet
        · contradiction
        · injection hnet with hnet
          subst hnet
          refine .inr ⟨0, _, rfl, fun link _ => ?_⟩
          have hcomplete : ∀ c, link.Evolves (link.complete c) ∧ link.SameStanding (link.complete c) ∧
              ∀ r ∈ (link.complete c).regions,
                r ∈ link.regions ∨ .block r.extent.block ∈ (Request.send endpoint id element signaled).handles :=
            fun c => ⟨.complete link c, .complete link c, fun r hr => .inl (by simpa using hr)⟩
          split
          · exact hcomplete _
          · next message hmessage =>
            split
            · exact hcomplete _
            · split
              · refine ⟨?_, ⟨by simp, by simp, by simp⟩, fun r hr => .inl (by simpa using hr)⟩
                exact Link.Evolves.trans (b := { link with inbox := link.inbox ++ [message] })
                  ⟨rfl, fun h => h, fun h => h, fun h => ⟨h, rfl⟩⟩ (.complete ..)
              · exact ⟨⟨rfl, fun h => h, fun h => h, fun h => ⟨h, rfl⟩⟩, ⟨rfl, rfl, rfl⟩, fun r hr => .inl hr⟩
    · exact .inl rfl
  | poll endpoint =>
    obtain rfl : k = endpoint.handle := by simpa [Request.handles] using hk
    simp only [serve, Loopback.poll]
    split
    · exact .inl rfl
    · refine .inr ⟨0, _, rfl, fun link _ => ⟨?_, ⟨rfl, rfl, rfl⟩, fun r hr => .inl hr⟩⟩
      exact ⟨rfl, fun h => h, fun h => h, fun h => ⟨h, rfl⟩⟩
  | receivePsn endpoint => exact .inl rfl
  | disconnect endpoint =>
    obtain rfl : k = endpoint.handle := by simpa [Request.handles] using hk
    exact .inr ⟨0, _, rfl, fun link _ =>
      ⟨.closeServer link, ⟨rfl, rfl, rfl⟩, fun r hr => by simp [Link.closeServer] at hr⟩⟩

variable {memory : Memory} {request : Request}

theorem Sound.serve (h : net.Sound) (hrequest : ∀ k, .endpoint k ∈ request.handles → k ∉ net.pending) :
    (net.serve memory request).2.Sound := by
  have hendpoint : ∀ k, .endpoint k ∈ request.handles → (net.serve memory request).2.Sound := by
    intro k hk
    rcases serve_endpoint net memory request hk with heq | ⟨n, f, heq, hf⟩
    · rw [heq]
      exact h
    · rw [heq]
      apply Sound.modifyLink (h.grow n)
      · intro link hlink
        exact (hf link hlink).1.channel
      · intro hmem
        exact absurd hmem (hrequest k hk)
  cases request with
  | createChannel => exact h.createChannel
  | bind channel port =>
    simp only [Loopback.serve, answer]
    split
    · next hbind => exact h.bind hbind
    · exact h
  | listen channel backlog =>
    simp only [Loopback.serve, answer]
    split
    · next hlisten => exact h.listen hlisten
    · exact h
  | nextEvent channel => exact h.nextEvent channel
  | accept channel k queues => exact h.accept channel k queues
  | closeChannel channel => exact h.closeChannel channel
  | register endpoint | deregister endpoint | send endpoint | poll endpoint | receivePsn endpoint
  | disconnect endpoint => exact hendpoint endpoint.handle (by simp [Request.handles])

theorem Evolves.serve (net : Loopback) (memory : Memory) (request : Request) :
    net.Evolves (net.serve memory request).2 := by
  have hendpoint : ∀ k, .endpoint k ∈ request.handles →
      net.Evolves (net.serve memory request).2 := by
    intro k hk
    rcases serve_endpoint net memory request hk with heq | ⟨n, f, heq, hf⟩
    · rw [heq]
      exact .refl net
    · rw [heq]
      exact .trans (.grow net n) (.modifyLink fun link hlink => (hf link hlink).1)
  cases request with
  | createChannel => exact .createChannel net
  | bind channel port =>
    simp only [Loopback.serve, answer]
    split
    · next hbind => exact .bind hbind
    · exact .refl net
  | listen channel backlog =>
    simp only [Loopback.serve, answer]
    split
    · next hlisten => exact .listen hlisten
    · exact .refl net
  | nextEvent channel => exact .nextEvent net channel
  | accept channel k queues => exact .accept net channel k queues
  | closeChannel channel => exact .closeChannel net channel
  | register endpoint | deregister endpoint | send endpoint | poll endpoint | receivePsn endpoint
  | disconnect endpoint => exact hendpoint endpoint.handle (by simp [Request.handles])

theorem acquired_serve {handle : Handle}
    (h : handle ∈ request.acquired (net.serve memory request).1) :
    handle = .channel (net.lastId + 1) ∨ ∃ k ∈ net.pending, handle = .endpoint k := by
  cases request with
  | createChannel => exact .inl (List.mem_singleton.mp h)
  | accept channel k queues =>
    simp only [serve] at h
    rcases accept_cases net channel k queues with ⟨_, heq⟩ | ⟨_, heq⟩ | ⟨link, -, hmem, -, heq⟩
    · simp [heq, Request.acquired] at h
    · simp [heq, Request.acquired] at h
    · simp only [heq, Request.acquired, List.mem_singleton] at h
      exact .inr ⟨k, hmem, h⟩
  | _ => simp [Request.acquired] at h

theorem serve_accepted {k : ConnectionId}
    (h : .endpoint k ∈ request.acquired (net.serve memory request).1) :
    ∃ channel queues link, request = .accept channel k queues ∧ net.links[k]? = some link ∧
      k ∈ net.pending ∧ (net.serve memory request).2.pending = net.pending.erase k ∧
      (net.serve memory request).2.links[k]? = some { link with
        queueSize := queues.completions.toNat
        acceptedBy := some channel } := by
  cases request with
  | accept channel j queues =>
    simp only [serve] at h ⊢
    rcases accept_cases net channel j queues with ⟨_, heq⟩ | ⟨_, heq⟩ | ⟨link, hlink, hmem, -, heq⟩
    · simp [heq, Request.acquired] at h
    · simp [heq, Request.acquired] at h
    · simp only [heq, Request.acquired, List.mem_singleton, Handle.endpoint.injEq] at h
      subst h
      refine ⟨channel, queues, link, rfl, hlink, hmem, by rw [heq]; rfl, ?_⟩
      rw [heq]
      refine (getElem?_modifyLink ..).trans ?_
      rw [if_pos rfl, hlink]
      rfl
  | createChannel => simp [serve, Request.acquired] at h
  | _ => simp [Request.acquired] at h

theorem serve_links_of_ne {k : ConnectionId} (hk : .endpoint k ∉ request.handles)
    (hacquired : .endpoint k ∉ request.acquired (net.serve memory request).1) :
    (net.serve memory request).2.links[k]? = net.links[k]? := by
  have hendpoint : ∀ j, .endpoint j ∈ request.handles →
      (net.serve memory request).2.links[k]? = net.links[k]? := by
    intro j hj
    have hne : j ≠ k := fun heq => hk (heq ▸ hj)
    rcases serve_endpoint net memory request hj with heq | ⟨n, f, heq, -⟩
    · rw [heq]
    · rw [heq, getElem?_modifyLink, if_neg hne]
  cases request with
  | createChannel => rfl
  | bind channel port =>
    simp only [serve, answer, Loopback.bind]
    grind
  | listen channel backlog =>
    simp only [serve, answer, Loopback.listen]
    grind
  | nextEvent channel =>
    simp only [serve, Loopback.nextEvent]
    grind
  | accept channel j queues =>
    simp only [serve] at hacquired ⊢
    rcases accept_cases net channel j queues with ⟨_, heq⟩ | ⟨_, heq⟩ | ⟨link, -, -, -, heq⟩
    · rw [heq]
    · rw [heq]
    · rw [heq, Request.acquired, List.mem_singleton, Handle.endpoint.injEq] at hacquired
      rw [heq]
      exact (getElem?_modifyLink ..).trans (if_neg (Ne.symm hacquired))
  | closeChannel channel => exact congrArg (·[k]?) (links_closeChannel net channel)
  | register endpoint | deregister endpoint | send endpoint | poll endpoint | receivePsn endpoint
  | disconnect endpoint => exact hendpoint endpoint.handle (by simp [Request.handles])

theorem serve_standing {k : ConnectionId} {link : Link} (hlink : net.links[k]? = some link) :
    ∃ link', (net.serve memory request).2.links[k]? = some link' ∧
      (link.SameStanding link' ∨ ∃ channel queues, request = .accept channel k queues ∧ k ∈ net.pending ∧
        link' = { link with queueSize := queues.completions.toNat, acceptedBy := some channel }) := by
  by_cases hk : .endpoint k ∈ request.handles
  · rcases serve_endpoint net memory request hk with heq | ⟨n, f, heq, hf⟩
    · rw [heq]
      exact ⟨link, hlink, .inl (.refl link)⟩
    · rw [heq, getElem?_modifyLink, if_pos rfl]
      exact ⟨f link, congrArg (Option.map f) hlink, .inl (hf link hlink).2.1⟩
  · by_cases hacquired : .endpoint k ∈ request.acquired (net.serve memory request).1
    · obtain ⟨channel, queues, link', hrequest, hold, hmem, -, hnew⟩ := serve_accepted hacquired
      rw [hlink] at hold
      injection hold with hold
      subst hold
      exact ⟨_, hnew, .inr ⟨channel, queues, hrequest, hmem, rfl⟩⟩
    · exact ⟨link, (serve_links_of_ne hk hacquired).trans hlink, .inl (.refl link)⟩

theorem serve_channels_of_ne {c : ChannelId} (hc : .channel c ∉ request.handles)
    (hacquired : .channel c ∉ request.acquired (net.serve memory request).1) :
    (net.serve memory request).2.channels[c]? = net.channels[c]? := by
  have hendpoint : ∀ j, .endpoint j ∈ request.handles →
      (net.serve memory request).2.channels[c]? = net.channels[c]? := by
    intro j hj
    rcases serve_endpoint net memory request hj with heq | ⟨n, f, heq, -⟩
    · rw [heq]
    · rw [heq]
      rfl
  cases request with
  | createChannel =>
    simp only [serve, Request.acquired, List.mem_singleton, Handle.channel.injEq] at hacquired
    exact (getElem?_createChannel net c).trans (if_neg (Ne.symm hacquired))
  | bind channel port =>
    simp only [Request.handles, List.mem_singleton, Handle.channel.injEq] at hc
    simp only [serve, answer, Loopback.bind]
    grind
  | listen channel backlog =>
    simp only [serve, answer, Loopback.listen]
    grind
  | nextEvent channel =>
    simp only [Request.handles, List.mem_singleton, Handle.channel.injEq] at hc
    simp only [serve, Loopback.nextEvent]
    grind
  | accept channel j queues =>
    simp only [Request.handles, List.mem_singleton, Handle.channel.injEq] at hc
    simp only [serve]
    rcases accept_cases net channel j queues with ⟨_, heq⟩ | ⟨_, heq⟩ | ⟨link, -, -, -, heq⟩
    · rw [heq]
    · rw [heq]
    · rw [heq, getElem?_deliver, if_neg (Ne.symm hc)]
      rfl
  | closeChannel channel =>
    simp only [Request.handles, List.mem_singleton, Handle.channel.injEq] at hc
    exact (getElem?_closeChannel net channel c).trans (if_neg (Ne.symm hc))
  | register endpoint | deregister endpoint | send endpoint | poll endpoint | receivePsn endpoint
  | disconnect endpoint => exact hendpoint endpoint.handle (by simp [Request.handles])

theorem serve_listeners_of_ne (h : net.Sound) {port : UInt16} {l : Listener}
    (hl : .channel l.channel ∉ request.handles) :
    (net.serve memory request).2.listeners[port]? = some l ↔ net.listeners[port]? = some l := by
  have hendpoint : ∀ j, .endpoint j ∈ request.handles →
      ((net.serve memory request).2.listeners[port]? = some l ↔ net.listeners[port]? = some l) := by
    intro j hj
    rcases serve_endpoint net memory request hj with heq | ⟨n, f, heq, -⟩
    · rw [heq]
    · rw [heq]
      rfl
  cases request with
  | createChannel => rfl
  | bind channel port =>
    simp only [Request.handles, List.mem_singleton, Handle.channel.injEq] at hl
    simp only [serve, answer, Loopback.bind]
    grind
  | listen channel backlog =>
    simp only [Request.handles, List.mem_singleton, Handle.channel.injEq] at hl
    simp only [serve, answer, Loopback.listen]
    grind
  | nextEvent channel =>
    simp only [serve, Loopback.nextEvent]
    grind
  | accept channel j queues =>
    simp only [serve]
    rcases accept_cases net channel j queues with ⟨_, heq⟩ | ⟨_, heq⟩ | ⟨link, -, -, -, heq⟩
    · rw [heq]
    · rw [heq]
    · rw [heq]
      rfl
  | closeChannel channel =>
    simp only [Request.handles, List.mem_singleton, Handle.channel.injEq] at hl
    exact (getElem?_listeners_closeChannel h channel port l).trans (and_iff_left hl)
  | register endpoint | deregister endpoint | send endpoint | poll endpoint | receivePsn endpoint
  | disconnect endpoint => exact hendpoint endpoint.handle (by simp [Request.handles])

theorem mem_pending_of_serve {k : ConnectionId} (hk : k ∈ (net.serve memory request).2.pending) :
    k ∈ net.pending := by
  have hendpoint : ∀ j, .endpoint j ∈ request.handles → k ∈ net.pending := by
    intro j hj
    rcases serve_endpoint net memory request hj with heq | ⟨n, f, heq, -⟩
    · rw [heq] at hk
      exact hk
    · rw [heq] at hk
      exact hk
  cases request with
  | createChannel => exact hk
  | bind channel port =>
    simp only [serve, answer, Loopback.bind] at hk
    grind
  | listen channel backlog =>
    simp only [serve, answer, Loopback.listen] at hk
    grind
  | nextEvent channel =>
    simp only [serve, Loopback.nextEvent] at hk
    grind
  | accept channel j queues =>
    simp only [serve] at hk
    rcases accept_cases net channel j queues with ⟨_, heq⟩ | ⟨_, heq⟩ | ⟨_, -, -, -, heq⟩
    · rw [heq] at hk
      exact hk
    · rw [heq] at hk
      exact List.mem_of_mem_erase hk
    · rw [heq] at hk
      exact List.mem_of_mem_erase hk
  | closeChannel channel =>
    simp only [serve, Loopback.closeChannel] at hk
    split at hk
    · exact hk
    · exact (List.mem_filter.mp hk).1
  | register endpoint | deregister endpoint | send endpoint | poll endpoint | receivePsn endpoint
  | disconnect endpoint => exact hendpoint endpoint.handle (by simp [Request.handles])

theorem serve_pending_of_ne (h : net.Sound) {k : ConnectionId} {link : Link}
    (hlink : net.links[k]? = some link) (hk : .channel link.channel ∉ request.handles)
    (hown : ∀ channel j queues, request = .accept channel j queues →
      ∀ link, net.links[j]? = some link → link.channel = channel) :
    k ∈ (net.serve memory request).2.pending ↔ k ∈ net.pending := by
  have hendpoint : ∀ j, .endpoint j ∈ request.handles →
      (k ∈ (net.serve memory request).2.pending ↔ k ∈ net.pending) := by
    intro j hj
    rcases serve_endpoint net memory request hj with heq | ⟨n, f, heq, -⟩
    · rw [heq]
    · rw [heq]
      rfl
  cases request with
  | createChannel => rfl
  | bind channel port =>
    simp only [serve, answer, Loopback.bind]
    grind
  | listen channel backlog =>
    simp only [serve, answer, Loopback.listen]
    grind
  | nextEvent channel =>
    simp only [serve, Loopback.nextEvent]
    grind
  | accept channel j queues =>
    simp only [Request.handles, List.mem_singleton, Handle.channel.injEq] at hk
    have hne : k ≠ j := by
      rintro rfl
      exact hk (hown channel k queues rfl link hlink)
    simp only [serve]
    rcases accept_cases net channel j queues with ⟨_, heq⟩ | ⟨_, heq⟩ | ⟨_, -, -, -, heq⟩
    · rw [heq]
    · rw [heq]
      exact List.mem_erase_of_ne hne
    · rw [heq]
      exact List.mem_erase_of_ne hne
  | closeChannel channel =>
    simp only [Request.handles, List.mem_singleton, Handle.channel.injEq] at hk
    simp only [serve]
    rw [mem_pending_closeChannel h, hlink]
    simp [hk]
  | register endpoint | deregister endpoint | send endpoint | poll endpoint | receivePsn endpoint
  | disconnect endpoint => exact hendpoint endpoint.handle (by simp [Request.handles])

theorem serve_regions {k : ConnectionId} {link' : Link} {r : Registration}
    (hlink : (net.serve memory request).2.links[k]? = some link') (hr : r ∈ link'.regions) :
    (∃ link, net.links[k]? = some link ∧ r ∈ link.regions) ∨
      .endpoint k ∈ request.handles ∧ .block r.extent.block ∈ request.handles := by
  by_cases hk : .endpoint k ∈ request.handles
  · rcases serve_endpoint net memory request hk with heq | ⟨n, f, heq, hf⟩
    · rw [heq] at hlink
      exact .inl ⟨link', hlink, hr⟩
    · rw [heq, getElem?_modifyLink, if_pos rfl, Option.map_eq_some_iff] at hlink
      obtain ⟨link, hlink, rfl⟩ := hlink
      rcases (hf link hlink).2.2 r hr with hold | hnew
      · exact .inl ⟨link, hlink, hold⟩
      · exact .inr ⟨hk, hnew⟩
  · by_cases hacquired : .endpoint k ∈ request.acquired (net.serve memory request).1
    · obtain ⟨channel, queues, link, -, hold, -, -, hnew⟩ := serve_accepted hacquired
      rw [hnew] at hlink
      injection hlink with hlink
      subst hlink
      exact .inl ⟨link, hold, hr⟩
    · rw [serve_links_of_ne hk hacquired] at hlink
      exact .inl ⟨link', hlink, hr⟩

end Loopback

end RemoteSlots
