import RemoteSlots.Proofs.Session.Foothold
import RemoteSlots.Proofs.World.Action
import RemoteSlots.Proofs.World.Sound

/-!
This module shows what the actions do that are no moves of operations: which of them only touch memory and
fabrics, which handles they use there, and what they do to the stores and calls of a world.
-/

namespace RemoteSlots

open Std

namespace Action

def isPlain : Action → Bool
  | clearStore _ | putSlot .. | pollStore _ | inspectStore _ | allocateSpare _ | pollSession _
  | inspectSession _ | takeEntries _ | allocate .. | fill .. | zero _ | unmap _ | connect _ | inject ..
  | receive .. | write .. | hangUp _ | request _ => true
  | _ => false

def isPeer : Action → Bool
  | unmap _ | connect _ | inject .. | receive .. | write .. | hangUp _ => true
  | _ => false

end Action

def Task.party : Task → Party
  | call id => .call id
  | session id => .session id

namespace World

def actor? (w : World) : Action → Option Party
  | .step task _ => some task.party
  | .endCall id => w.calls[id]?.map fun call => .store call.store
  | .clearStore id | .putSlot id _ _ | .pollStore id | .inspectStore id | .dropStore id => some (.store id)
  | .pollSession id | .inspectSession id | .dropSession id => some (.session id)
  | _ => none

def SameRegistry (w w' : World) : Prop := ∃ memory net scripts, w' = { w with memory, net, scripts }

theorem SameRegistry.refl (w : World) : w.SameRegistry w := ⟨_, _, _, rfl⟩

theorem SameRegistry.trans {a b c : World} (hab : a.SameRegistry b) (hbc : b.SameRegistry c) :
    a.SameRegistry c := by
  obtain ⟨_, _, _, rfl⟩ := hab
  obtain ⟨_, _, _, rfl⟩ := hbc
  exact ⟨_, _, _, rfl⟩

variable {w : World}

section

variable (w : World) (fabric : FabricId)

theorem sameRegistry_serve (request : Request) : w.SameRegistry (w.serve fabric request).2 := by
  unfold serve
  split
  · exact ⟨_, _, _, rfl⟩
  · split
    · exact .refl w
    · exact ⟨_, _, _, rfl⟩

theorem sameRegistry_serveAll (requests : List Request) :
    w.SameRegistry (w.serveAll fabric requests) := by
  unfold serveAll
  induction requests generalizing w with
  | nil => exact .refl w
  | cons request requests ih => exact (sameRegistry_serve w fabric request).trans (ih _)

end

theorem any_of_getElem? {map : TreeMap Nat α} {p : Nat → α → Bool} {k : Nat} {v : α}
    (h : map[k]? = some v) (hp : p k v) : map.any p := by
  have hany : map.any p = map.toList.any fun x => p x.1 x.2 := by
    have hfor : ∀ xs : List (Nat × α), (Id.run do
        for x in xs do
          if p x.1 x.2 then
            return true
        return false) = xs.any fun x => p x.1 x.2 := by
      intro xs
      induction xs with
      | nil => rfl
      | cons x xs ih =>
        rw [List.any_cons, ← ih]
        rcases hx : p x.1 x.2 <;> simp [hx]
    rw [← hfor, ← TreeMap.forIn_eq_forIn_toList]
    rfl
  rw [hany, List.any_eq_true]
  exact ⟨(k, v), TreeMap.mem_toList_iff_getElem?_eq_some.mpr h, hp⟩

theorem not_mem_holdings_of_not_isPrivate {b : BlockId} (h : w.isPrivate b = false) (id : CallId) :
    .block b ∉ w.holdings (.call id) := by
  intro hmem
  rcases hcall : w.calls[id]? with _ | call
  · simp [holdings, custody?, hcall] at hmem
  · have hprivate : w.isPrivate b = true :=
      any_of_getElem? hcall (decide_eq_true hmem)
    rw [h] at hprivate
    contradiction

theorem not_mem_holdings_of_not_isHeld {handle : Handle} (h : w.isHeld handle = false) (party : Party) :
    handle ∉ w.holdings party := by
  intro hmem
  simp only [isHeld, Bool.or_eq_false_iff] at h
  obtain ⟨⟨hcalls, hsessions⟩, hstores⟩ := h
  cases party with
  | call id =>
    rcases hcall : w.calls[id]? with _ | call
    · simp [holdings, custody?, hcall] at hmem
    · rw [any_of_getElem? hcall (decide_eq_true hmem)] at hcalls
      contradiction
  | session id =>
    rcases hsession : w.sessions[id]? with _ | session
    · simp [holdings, custody?, hsession] at hmem
    · rw [any_of_getElem? hsession (decide_eq_true hmem)] at hsessions
      contradiction
  | store id =>
    rcases hstore : w.stores[id]? with _ | store
    · simp [holdings, custody?, hstore] at hmem
    · rw [any_of_getElem? hstore (decide_eq_true hmem)] at hstores
      contradiction

theorem mayUse_of_isShared {b : BlockId} (h : w.isShared b) : w.MayUse none (.block b) := by
  simp only [isShared, Bool.and_eq_true, Bool.not_eq_true'] at h
  refine ⟨⟨Memory.lt_of_isLive h.1, h.1⟩, ?_⟩
  rintro p (hblock | ⟨id, rfl⟩)
  · contradiction
  · exact not_mem_holdings_of_not_isPrivate h.2 id

theorem mayUse_of_isOpenTo (hw : w.Sound) {request : Request} (h : w.isOpenTo request) :
    ∀ handle ∈ request.handles, w.MayUse none handle := by
  intro handle hmem
  have hopen := List.all_eq_true.mp h handle hmem
  cases handle with
  | channel c =>
    simp only [Bool.and_eq_true, decide_eq_true_eq, Bool.not_eq_true'] at hopen
    exact ⟨⟨hopen.1, trivial⟩, fun p _ => not_mem_holdings_of_not_isHeld hopen.2 p⟩
  | endpoint k =>
    simp only [Bool.and_eq_true, Option.any_eq_true, Bool.not_eq_true'] at hopen
    obtain ⟨⟨link, hlink, haccepted⟩, hheld⟩ := hopen
    refine ⟨⟨⟨by rw [hlink]; rfl, fun hk => ?_⟩, trivial⟩, fun p _ => not_mem_holdings_of_not_isHeld hheld p⟩
    obtain ⟨link', hlink', hfresh, -⟩ := hw.net.pending k hk
    rw [hlink] at hlink'
    injection hlink' with hlink'
    subst hlink'
    rw [hfresh.acceptedBy] at haccepted
    contradiction
  | block b => exact mayUse_of_isShared hopen

section

variable (w : World) (fabric : FabricId)

theorem mem_handles_of_endpoint {phase : Phase} {endpoint : Endpoint} (h : phase.endpoint? = some endpoint) :
    .endpoint endpoint.handle ∈ phase.custody.handles := by
  have hmem : .disconnect endpoint ∈ phase.custody.release := by simp [Phase.custody, Phase.release, h]
  exact Custody.mem_handles_of_mem_release hmem (List.mem_singleton_self _)

theorem pollOnce_eq (phase : Phase) :
    (w.pollOnce fabric phase).2 = w ∨ ∃ request : Request, request.isMild ∧
      (∀ handle ∈ request.handles, handle ∈ phase.custody.handles) ∧
        (w.pollOnce fabric phase).2 = (w.serve fabric request).2 := by
  have hpoll : ∀ endpoint : Endpoint, phase.endpoint? = some endpoint →
      (w.pollOnce fabric phase).2 = (w.serve fabric (.poll endpoint)).2 →
      (w.pollOnce fabric phase).2 = w ∨ ∃ request : Request, request.isMild ∧
        (∀ handle ∈ request.handles, handle ∈ phase.custody.handles) ∧
          (w.pollOnce fabric phase).2 = (w.serve fabric request).2 := by
    intro endpoint hendpoint heq
    refine .inr ⟨.poll endpoint, rfl, fun handle hmem => ?_, heq⟩
    rw [List.mem_singleton.mp hmem]
    exact mem_handles_of_endpoint hendpoint
  cases phase with
  | unbound | listening | requested => exact .inl rfl
  | accepted binding endpoint | registered binding endpoint | advertised binding endpoint
  | ready binding endpoint =>
    apply hpoll endpoint rfl
    simp only [pollOnce]
    split
    · next h => rw [h]
    · next h => rw [h]

theorem transportInfo_eq (phase : Phase) :
    (w.transportInfo fabric phase).2 = w ∨ ∃ request : Request, request.isMild ∧
      (∀ handle ∈ request.handles, handle ∈ phase.custody.handles) ∧
        (w.transportInfo fabric phase).2 = (w.serve fabric request).2 := by
  cases phase with
  | ready binding endpoint region baseline =>
    refine .inr ⟨.receivePsn endpoint, rfl, fun handle hmem => ?_, ?_⟩
    · rw [List.mem_singleton.mp hmem]
      exact mem_handles_of_endpoint rfl
    · simp only [transportInfo]
      split
      · next h => rw [h]
      · next h => rw [h]
  | _ => exact .inl rfl

end

/--
What an action does that leaves all stores, sessions and calls alone: something that one party may do, or
anybody.
-/
structure Acts (w w' : World) (actor : Option Party) : Prop where
  registry : w.SameRegistry w'
  effects : Effects (w.MayUse actor) w.memory w.net w'.memory w'.net

variable {fabric : FabricId} {actor : Option Party}

theorem Acts.refl (w : World) (actor : Option Party) : w.Acts w actor := ⟨.refl w, .refl⟩

theorem Acts.store (actor : Option Party) {block : BlockId} (start : Nat) (words : List UInt32)
    (h : w.MayUse actor (.block block)) :
    w.Acts { w with memory := w.memory.store block start words } actor :=
  ⟨⟨_, _, _, rfl⟩, .store block start words .refl h⟩

theorem Acts.clear (actor : Option Party) {block : BlockId} (h : w.MayUse actor (.block block)) :
    w.Acts { w with memory := w.memory.clear block } actor :=
  ⟨⟨_, _, _, rfl⟩, .clear block .refl h⟩

theorem Acts.allocate (actor : Option Party) {pages : PagePolicy} {length : Nat} {block : BlockId}
    {memory : Memory} (h : w.memory.allocate pages length = .ok (block, memory)) :
    w.Acts { w with memory } actor :=
  ⟨⟨_, _, _, rfl⟩, .allocate .refl h⟩

theorem Acts.serveAll {party : Party} {custody : Custody} (h : w.custody? party = some (fabric, custody))
    {requests : List Request} (hrequests : ∀ request ∈ requests, ∀ handle ∈ request.handles,
      handle ∈ custody.handles) :
    w.Acts (w.serveAll fabric requests) (some party) := by
  refine ⟨sameRegistry_serveAll .., effects_serveAll fabric .refl requests ?_⟩
  intro request hrequest handle hhandle
  obtain ⟨hmem, hvisible⟩ := FabricId.mem_visible.mp hhandle
  exact (mem_holdings_iff h).mpr ⟨hrequests request hrequest handle hmem, hvisible⟩

theorem Acts.serve {party : Party} {custody : Custody} (h : w.custody? party = some (fabric, custody))
    {request : Request} (hrequest : ∀ handle ∈ request.handles, handle ∈ custody.handles) :
    w.Acts (w.serve fabric request).2 (some party) := by
  have hacts : w.Acts (w.serveAll fabric [request]) (some party) :=
    .serveAll h fun r hr => List.mem_singleton.mp hr ▸ hrequest
  exact hacts

theorem storage_eq_ok {store : Store} {layout : Layout} {storage : Storage layout}
    (h : store.storage layout = .ok storage) :
    ∃ active, store.active = some active ∧ storage = ⟨store.config.capacity, active.region.block⟩ := by
  unfold Store.storage Store.active? at h
  rcases hactive : store.active with _ | active
  · simp [hactive] at h
  · simp only [hactive, Except.ok.injEq] at h
    exact ⟨active, rfl, h.symm⟩

theorem storage_of_active {store : Store} {active : Active} (h : store.active = some active) (layout : Layout) :
    store.storage layout = .ok ⟨store.config.capacity, active.region.block⟩ := by
  simp only [Store.storage, Store.active?, h]

theorem custody?_of_active {id : StoreId} {store : Store} {active : Active}
    (hstore : w.stores[id]? = some store) (hactive : store.active = some active) :
    w.custody? (.store id) = some (store.fabric, active.phase.custody) := by
  simp [custody?, hstore, Store.custody, hactive]

theorem block_mem_holdings_of_active {id : StoreId} {store : Store} {active : Active}
    (hstore : w.stores[id]? = some store) (hactive : store.active = some active) :
    .block active.region.block ∈ w.holdings (.store id) := by
  apply mem_holdings_of_mem_blocks (custody?_of_active hstore hactive)
  simp [Active.phase, Phase.custody, Phase.region?]

theorem mayUse_storage {id : StoreId} {store : Store} {layout : Layout} {storage : Storage layout}
    (hstore : w.stores[id]? = some store) (h : store.storage layout = .ok storage) :
    w.MayUse (some (.store id)) (.block storage.block) := by
  obtain ⟨active, hactive, rfl⟩ := storage_eq_ok h
  exact block_mem_holdings_of_active hstore hactive

theorem Acts.asks {party : Party} {custody : Custody} (h : w.custody? party = some (fabric, custody))
    {w' : World} (hasks : w' = w ∨ ∃ request : Request, request.isMild ∧
      (∀ handle ∈ request.handles, handle ∈ custody.handles) ∧ w' = (w.serve fabric request).2) :
    w.Acts w' (some party) := by
  rcases hasks with rfl | ⟨request, -, hrequest, rfl⟩
  · exact .refl ..
  · exact .serve h hrequest

theorem custody?_of_isAtRest {id : SessionId} {session : Session} (hsession : w.sessions[id]? = some session)
    (hrest : w.isAtRest (.session id)) :
    w.custody? (.session id) = some (session.fabric, session.phase.custody) := by
  simp only [isAtRest, result?, hsession] at hrest
  unfold Stage.result? at hrest
  split at hrest
  · next phase result hstage =>
    simp [custody?, hsession, Session.phase, hstage, Stage.custody, Stage.phase]
  · contradiction

theorem withSession_eq (w : World) (id : SessionId) (f : Session → World) :
    w.withSession id f = w ∨ ∃ session, w.sessions[id]? = some session ∧
      w.custody? (.session id) = some (session.fabric, session.phase.custody) ∧
        w.withSession id f = f session := by
  unfold withSession
  rcases hsession : w.sessions[id]? with _ | session
  · exact .inl rfl
  · dsimp only
    split
    · next hrest => exact .inr ⟨session, rfl, custody?_of_isAtRest hsession hrest, rfl⟩
    · exact .inl rfl

theorem act_dropSession (w : World) (id : SessionId) :
    w.act (.dropSession id) = w ∨ ∃ session, w.sessions[id]? = some session ∧ w.isAtRest (.session id) ∧
      w.act (.dropSession id) =
        { w.serveAll session.fabric session.phase.release with sessions := w.sessions.erase id } := by
  simp only [act, withSession]
  rcases hsession : w.sessions[id]? with _ | session
  · exact .inl rfl
  · dsimp only
    split
    · next hrest =>
      obtain ⟨_, _, _, heq⟩ := sameRegistry_serveAll w session.fabric session.phase.release
      refine .inr ⟨session, rfl, hrest, ?_⟩
      simp only [dropSession, hsession, heq]
    · exact .inl rfl

@[simp]
theorem stores_act_dropSession (w : World) (id : SessionId) : (w.act (.dropSession id)).stores = w.stores := by
  rcases act_dropSession w id with heq | ⟨session, -, -, heq⟩
  · rw [heq]
  · obtain ⟨_, _, _, hserve⟩ := sameRegistry_serveAll w session.fabric session.phase.release
    rw [heq, hserve]

theorem act_plain (h : w.Sound) {action : Action} (hplain : action.isPlain) (hpeer : ¬action.isPeer) :
    w.Acts (w.act action) (w.actor? action) := by
  cases action with
  | clearStore id =>
    simp only [act, withStore]
    split
    · exact .refl ..
    · next store hstore =>
      simp only [clearStorage]
      split
      · next storage hstorage => exact .clear _ (mayUse_storage hstore hstorage)
      · exact .refl ..
  | putSlot id index words =>
    simp only [act, withStore]
    split
    · exact .refl ..
    · next store hstore =>
      simp only [putSlot]
      rcases hstorage : store.storage store.layout with failure | storage
      · exact .refl ..
      · simp only [Storage.put, bind, Except.bind]
        by_cases hindex : index < storage.capacity
        · simp only [if_pos hindex]
          exact .store _ _ _ (mayUse_storage hstore hstorage)
        · simp only [if_neg hindex]
          exact .refl ..
  | pollStore id =>
    simp only [act, withStore]
    split
    · exact .refl ..
    · next store hstore =>
      simp only [storePoll, Store.active?]
      rcases hactive : store.active with _ | active
      · exact .refl ..
      · exact .asks (custody?_of_active hstore hactive) (pollOnce_eq ..)
  | inspectStore id =>
    simp only [act, withStore]
    split
    · exact .refl ..
    · next store hstore =>
      simp only [storeInfo, Store.active?]
      rcases hactive : store.active with _ | active
      · exact .refl ..
      · exact .asks (custody?_of_active hstore hactive) (transportInfo_eq ..)
  | allocateSpare id =>
    simp only [act, withStore]
    split
    · exact .refl ..
    · next store hstore =>
      simp only [allocateSpare]
      rcases hallocate : Storage.allocate w.memory store.config.pages store.layout
        store.config.capacity with halt | ⟨storage, memory⟩
      · exact .refl ..
      · unfold Storage.allocate at hallocate
        split at hallocate
        · contradiction
        · split at hallocate
          · contradiction
          · next block memory hmap =>
            simp only [Except.ok.injEq, Prod.mk.injEq] at hallocate
            obtain ⟨rfl, rfl⟩ := hallocate
            exact .allocate _ hmap
  | pollSession id =>
    simp only [act]
    rcases withSession_eq w id fun session => (w.pollOnce session.fabric session.phase).2 with
      heq | ⟨session, -, hcustody, heq⟩
    · rw [heq]
      exact .refl ..
    · rw [heq]
      exact .asks hcustody (pollOnce_eq ..)
  | inspectSession id =>
    simp only [act]
    rcases withSession_eq w id fun session => (w.transportInfo session.fabric session.phase).2 with
      heq | ⟨session, -, hcustody, heq⟩
    · rw [heq]
      exact .refl ..
    · rw [heq]
      exact .asks hcustody (transportInfo_eq ..)
  | takeEntries script =>
    simp only [act, takeEntries]
    split
    · exact .refl ..
    · exact ⟨⟨_, _, _, rfl⟩, .refl⟩
  | allocate pages length =>
    simp only [act, World.allocate]
    rcases hallocate : w.memory.allocate pages length with halt | ⟨block, memory⟩
    · exact .refl ..
    · exact .allocate _ hallocate
  | fill block start words =>
    simp only [act]
    split
    · next hshared => exact .store _ _ _ (mayUse_of_isShared hshared)
    · exact .refl ..
  | zero block =>
    simp only [act]
    split
    · next hshared => exact .clear _ (mayUse_of_isShared hshared)
    · exact .refl ..
  | request request =>
    simp only [act]
    split
    · next hopen =>
      refine ⟨sameRegistry_serve .., effects_serve _ _ .refl fun handle hmem => ?_⟩
      exact mayUse_of_isOpenTo h hopen handle (FabricId.mem_visible.mp hmem).1
    · exact .refl ..
  | connect | inject | receive | write | hangUp => contradiction
  | _ => contradiction

theorem not_mem_regions_of_not_isRegistered {b : BlockId} (h : w.isRegistered b = false) {k : ConnectionId}
    {link : Link} (hlink : w.net.links[k]? = some link) {r : Registration} (hr : r ∈ link.regions) :
    r.extent.block ≠ b := by
  intro heq
  have hany : link.regions.any (·.extent.block = b) := List.any_eq_true.mpr ⟨r, hr, decide_eq_true heq⟩
  have hregistered : w.isRegistered b = true := any_of_getElem? hlink hany
  rw [h] at hregistered
  contradiction

theorem act_unmap (w : World) (b : BlockId) :
    w.act (.unmap b) = w ∨ w.isLoose b ∧ w.act (.unmap b) = { w with memory := w.memory.unmap b } := by
  simp only [act]
  split
  · next hloose => exact .inr ⟨hloose, rfl⟩
  · exact .inl rfl

theorem net_act_unmap (w : World) (b : BlockId) : (w.act (.unmap b)).net = w.net := by
  rcases act_unmap w b with heq | ⟨-, heq⟩
  · rw [heq]
  · rw [heq]

theorem not_mem_holdings_of_isLoose {b : BlockId} (h : w.isLoose b) (party : Party) :
    .block b ∉ w.holdings party := by
  simp only [isLoose, Bool.and_eq_true, Bool.not_eq_true'] at h
  exact not_mem_holdings_of_not_isHeld h.1 party

theorem memory_peer (w : World) {action : Action} (hpeer : action.isPeer) :
    (w.act action).memory = w.memory ∨
      (∃ b address words, (w.act action).memory = w.memory.storeAt b address words) ∨
      ∃ b, action = .unmap b ∧ w.isLoose b ∧ (w.act action).memory = w.memory.unmap b := by
  cases action with
  | unmap b =>
    rcases act_unmap w b with heq | ⟨hloose, heq⟩
    · exact .inl (congrArg (·.memory) heq)
    · exact .inr (.inr ⟨b, rfl, hloose, congrArg (·.memory) heq⟩)
  | connect port =>
    simp only [act, World.connect]
    rcases w.net.connect port with failure | ⟨peer, net⟩ <;> exact .inl rfl
  | inject port kind status =>
    simp only [act, World.inject]
    rcases w.net.inject port kind status with failure | net <;> exact .inl rfl
  | receive | hangUp => exact .inl rfl
  | write peer request address key words =>
    have hmemory : (w.act (.write peer request address key words)).memory = _ :=
      Loopback.write_memory w.net w.memory peer request address key words
    rw [hmemory]
    split
    · exact .inr (.inl ⟨_, _, _, rfl⟩)
    · exact .inl rfl
  | _ => contradiction

theorem act_peer (h : w.Sound) {action : Action} (hpeer : action.isPeer) :
    w.SameRegistry (w.act action) ∧
      Advances (w.MayUse none) w.memory w.net (w.act action).memory (w.act action).net := by
  have hrefl : Advances (w.MayUse none) w.memory w.net w.memory w.net :=
    Effects.refl.advances h.net fun handle huse => h.isIssued_of_mayUse huse
  cases action with
  | unmap b =>
    rcases act_unmap w b with heq | ⟨-, heq⟩
    · rw [heq]
      exact ⟨.refl w, hrefl⟩
    · rw [heq]
      exact ⟨⟨_, _, _, rfl⟩, h.net, .refl _, Nat.le_of_eq (Memory.size_unmap ..).symm, hrefl.regions⟩
  | connect port =>
    simp only [act, World.connect]
    rcases hconnect : w.net.connect port with failure | ⟨id, net⟩
    · exact ⟨.refl w, hrefl⟩
    · refine ⟨⟨_, _, _, rfl⟩, h.net.connect hconnect, .connect h.net hconnect, Nat.le_refl _, ?_⟩
      intro k link' hlink' r hr
      rcases Loopback.connect_links_cases hconnect hlink' with hold | hfresh
      · exact .inl ⟨link', hold, hr⟩
      · rw [hfresh.regions] at hr
        contradiction
  | inject port kind status =>
    simp only [act, World.inject]
    rcases hinject : w.net.inject port kind status with failure | net
    · exact ⟨.refl w, hrefl⟩
    · refine ⟨⟨_, _, _, rfl⟩, h.net.inject hinject, .inject hinject, Nat.le_refl _, ?_⟩
      obtain ⟨channel, rfl⟩ := Loopback.inject_eq_ok hinject
      exact fun k link' hlink' r hr => .inl ⟨link', hlink', hr⟩
  | receive peer limit =>
    refine ⟨⟨_, _, _, rfl⟩, .of_links (h.net.receive ..) (.receive ..) rfl
      (fun k => Loopback.receive_links ..) fun link => rfl⟩
  | write peer request address key words =>
    refine ⟨⟨_, _, _, rfl⟩, .of_links (h.net.write ..) (.write ..) ?_
      (fun k => Loopback.write_links ..) fun link => Loopback.regions_writeEffect ..⟩
    refine (congrArg (·.blocks.size) (Loopback.write_memory ..)).trans ?_
    split
    · exact Memory.size_storeAt ..
    · rfl
  | hangUp peer =>
    exact ⟨⟨_, _, _, rfl⟩, .of_links (h.net.hangUp ..) (.hangUp ..) rfl
      (fun k => Loopback.hangUp_links ..) fun link => rfl⟩
  | _ => contradiction

theorem SameRegistry.custody?_eq {w' : World} (h : w.SameRegistry w') (party : Party) :
    w'.custody? party = w.custody? party := by
  obtain ⟨_, _, _, rfl⟩ := h
  cases party <;> rfl

theorem Sound.sameRegistry_act (h : w.Sound) {action : Action} (hplain : action.isPlain) :
    w.SameRegistry (w.act action) := by
  by_cases hpeer : action.isPeer
  · exact (act_peer h hpeer).1
  · exact (World.act_plain h hplain hpeer).registry

theorem Sound.unmap (h : w.Sound) {b : BlockId} (hloose : w.isLoose b) :
    Sound { w with memory := w.memory.unmap b } := by
  have hregistered : w.isRegistered b = false := by
    simp only [isLoose, Bool.and_eq_true, Bool.not_eq_true'] at hloose
    exact hloose.2
  have hsize := Nat.le_of_eq (Memory.size_unmap w.memory b).symm
  refine ⟨h.net, ?_, ?_, h.exclusive, ?_, ?_⟩
  · intro party handle hmem
    exact (h.issued party handle hmem).mono h.net (.refl _) hsize
  · intro party handle hmem
    have hlive := h.live party handle hmem
    cases handle with
    | block c =>
      have hne : b ≠ c := fun heq => not_mem_holdings_of_isLoose hloose party (heq ▸ hmem)
      exact (Memory.isLive_unmap_of_ne w.memory hne).trans hlive
    | channel | endpoint => trivial
  · intro k link hlink r hr
    obtain ⟨hissued, hcalls⟩ := h.reach k link hlink r hr
    exact ⟨hissued.mono h.net (.refl _) hsize, hcalls⟩
  · intro k link hlink r hr
    have hne := (not_mem_regions_of_not_isRegistered hregistered hlink hr).symm
    exact (Memory.isLive_unmap_of_ne w.memory hne).trans (h.mapped k link hlink r hr)

theorem Sound.act_plain (h : w.Sound) {action : Action} (hplain : action.isPlain) :
    (w.act action).Sound := by
  by_cases hpeer : action.isPeer
  · obtain ⟨hregistry, hadvances⟩ := act_peer h hpeer
    have hcustody : ∀ party, w.Inherits (w.act action) party [] :=
      fun party => .of_custody_eq (hregistry.custody?_eq party)
    rcases memory_peer w hpeer with heq | ⟨b, address, words, heq⟩ | ⟨b, rfl, hloose, -⟩
    · exact h.settle hadvances (fun _ hb => heq ▸ hb) hcustody
    · exact h.settle hadvances (fun _ hb => heq ▸ (Memory.isLive_storeAt ..).trans hb) hcustody
    · simp only [act, if_pos hloose]
      exact h.unmap hloose
  · have hacts := World.act_plain h hplain hpeer
    have hadvances := hacts.effects.advances h.net fun handle huse => h.isIssued_of_mayUse huse
    exact h.settle hadvances (fun _ => hacts.effects.isLive) fun party =>
      .of_custody_eq (hacts.registry.custody?_eq party)

end World

end RemoteSlots
