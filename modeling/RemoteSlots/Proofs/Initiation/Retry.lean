import Mathlib.Algebra.Group.Nat.Defs
import RemoteSlots.Proofs.Initiation.Course

/-!
This module shows that a failed initiation spoils no later one. In whichever world a store is, if nothing about the
store itself stands in the way, its initiation listens after five moves, and ends well at most eighteen moves after a
peer has connected.
-/

namespace RemoteSlots

open Std

def Store.claimed (store : Store) : Store := { store with initiating := true }

theorem Store.IsWilling.claimed {store : Store} (h : store.IsWilling) : store.claimed.IsWilling :=
  ⟨h.fabric, h.idle, h.cancelled, h.waits, h.long⟩

namespace CallStage

def awaitsEvent : CallStage → Bool
  | initiate initiation => initiation.awaitsEvent
  | _ => false

theorem next_initiate {store : Store} {signals : Signals} {initiation : Initiation}
    (h : ∀ result, initiation ≠ .finished result) :
    (initiate initiation).next store signals =
      (initiation.next store.layout store.config signals).embed initiate := by
  cases initiation with
  | finished result => exact absurd rfl (h result)
  | run | allocate | clear | giveBack => rfl

end CallStage

structure Metadata.Describes (metadata : Metadata) (region : Region) : Prop where
  address : metadata.address.toNat = region.address
  length : metadata.length.toNat = region.length % 2 ^ 32
  key : metadata.key = region.keys.localKey

theorem Stage.describes_metadata {memory : Memory} {region : Region} (h : memory.Houses region.toExtent) :
    (metadata region).Describes region where
  address := by
    have hlt : region.address < addressLimit := Nat.lt_of_lt_of_le (Nat.lt_add_of_pos_right h.pos) h.bound
    exact UInt64.toNat_ofNat_of_lt' hlt
  length := UInt32.toNat_ofNat'
  key := rfl

inductive Opens (store : Store) (net : Loopback) : Nat → Store → CallStage → Prop
  | check (hfree : net.listeners[store.config.port]? = none) : Opens store net 5 store .check
  | claim (hfree : net.listeners[store.config.port]? = none) : Opens store net 4 store .claim
  | initiate {n : Nat} {initiation : Initiation} (h : Opening store.claimed net n initiation) :
    Opens store net n store.claimed (.initiate initiation)

inductive Nears (store : Store) (memory : Memory) (net : Loopback) (k : ConnectionId) :
    Nat → Store → CallStage → Prop
  | initiate {n : Nat} {initiation : Initiation} (h : Course store.claimed memory net k n initiation) :
    Nears store memory net k (n + 3) store.claimed (.initiate initiation)
  | free {active : Active} (hendpoint : active.endpoint.handle = k)
    (h : Told store.claimed memory net k active.region []) :
    Nears store memory net k 2 store.claimed (.free (.ok active))
  | publish {active : Active} (hendpoint : active.endpoint.handle = k)
    (h : Told store.claimed memory net k active.region []) : Nears store memory net k 1 store (.publish active)
  | ended {active : Active} (hendpoint : active.endpoint.handle = k)
    (h : Told store.claimed memory net k active.region []) :
    Nears store memory net k 0 { store with active := some active } (.over (.ok ()))

namespace World

variable {w : World} {id : CallId} {s : StoreId} {store current : Store} {stage : CallStage} {k : ConnectionId}
  {n : Nat} {expired : Bool}

theorem opens_move (hwilling : store.IsWilling) (hfree : store.initiating = false)
    (htimely : store.config.session.IsTimely w.now) (h : Opens store w.net n current stage)
    (hpatient : expired = true → stage.awaitsEvent = false) :
    w.Brings (stage.next current ⟨false, expired, w.now⟩) fun memory net stage' =>
      memory = w.memory ∧ Opens store net (n - 1) (stage.update current) stage' := by
  cases h with
  | check hport =>
    have hnext : CallStage.check.next store ⟨false, expired, w.now⟩ = .pass .claim := by
      simp [CallStage.next, Store.isReady, hwilling.idle]
    rw [hnext]
    exact ⟨rfl, .claim hport⟩
  | claim hport =>
    have hnext : CallStage.claim.next store ⟨false, expired, w.now⟩ = .pass (.initiate (.start store.config)) := by
      simp [CallStage.next, hfree]
    rw [hnext]
    exact ⟨rfl, .initiate (.openChannel hport)⟩
  | initiate h =>
    rw [CallStage.next_initiate fun result heq => by subst heq; cases h]
    refine brings_embed ?_
    have hmove := opening_move hwilling.claimed htimely h hpatient
    exact ⟨hmove.1, .initiate hmove.2⟩

theorem nears_move (hwilling : store.IsWilling) (hfree : store.initiating = false)
    (htimely : store.config.session.IsTimely w.now) (h : Nears store w.memory w.net k n current stage)
    (hpatient : expired = true → stage.awaitsEvent = false) :
    w.Brings (stage.next current ⟨false, expired, w.now⟩) fun memory net stage' =>
      ∃ m, m ≤ n - 1 ∧ Nears store memory net k m (stage.update current) stage' := by
  cases h with
  | @initiate n initiation h =>
    by_cases hfinished : ∃ result, initiation = .finished result
    · obtain ⟨result, rfl⟩ := hfinished
      cases h with
      | finished hendpoint h => exact ⟨2, Nat.le_refl 2, .free hendpoint h⟩
    · have hpos : n ≠ 0 := by
        rintro rfl
        cases h
        exact hfinished ⟨_, rfl⟩
      rw [CallStage.next_initiate fun result heq => hfinished ⟨result, heq⟩]
      refine brings_embed ?_
      obtain ⟨m, hm, hcourse⟩ := course_move hwilling.claimed htimely h hpatient
      exact ⟨m + 3, by omega, .initiate hcourse⟩
  | @free active hendpoint h =>
    have hstore : (CallStage.free (.ok active)).update store.claimed = store := by
      simp [CallStage.update, Store.claimed, ← hfree]
    rw [hstore]
    exact ⟨1, Nat.le_refl 1, .publish hendpoint h⟩
  | @publish active hendpoint h =>
    have hnext : (CallStage.publish active).next store ⟨false, expired, w.now⟩ = .pass (.over (.ok ())) := by
      simp [CallStage.next, Store.isReady, hwilling.idle]
    have hstore : (CallStage.publish active).update store = { store with active := some active } := by
      simp [CallStage.update, hwilling.idle]
    rw [hnext, hstore]
    exact ⟨0, Nat.le_refl 0, .ended hendpoint h⟩
  | ended hendpoint h => exact ⟨0, Nat.le_refl 0, .ended hendpoint h⟩

structure Stands (w : World) (id : CallId) (s : StoreId) (store : Store) (stage : CallStage) : Prop where
  calls : w.calls[id]? = some ⟨s, stage⟩
  stores : w.stores[s]? = some store

theorem Stands.move (h : w.Stands id s store stage) (hfabric : store.fabric = .loopback)
    (hcancelled : store.cancelled = false) {P : Memory → Loopback → CallStage → Prop}
    (hbrings : w.Brings (stage.next store ⟨false, expired, w.now⟩) P) :
    ∃ stage', (w.act (.step (.call id) expired)).Stands id s (stage.update store) stage' ∧
      P (w.act (.step (.call id) expired)).memory (w.act (.step (.call id) expired)).net stage' := by
  have hspec := stepCall_spec h.calls h.stores expired
  rw [hfabric, hcancelled] at hspec
  rw [act_step h.calls h.stores]
  refine ⟨_, ⟨(hspec.calls id).trans (if_pos rfl), (hspec.stores s).trans (if_pos rfl)⟩, ?_⟩
  rw [hspec.memory, hspec.net]
  exact hbrings

def moves (id : CallId) (expiries : List Bool) : List Action := expiries.map (.step (.call id))

theorem now_moves (w : World) (id : CallId) (expiries : List Bool) : (w.after (moves id expiries)).now = w.now := by
  induction expiries generalizing w with
  | nil => rfl
  | cons expired expiries ih => exact (ih _).trans (now_step w (.call id) expired)

def IsPatient (w : World) (id : CallId) : List Bool → Prop
  | [] => True
  | expired :: expiries => (expired = true → w.calls[id]?.any (·.stage.awaitsEvent) = false) ∧
    (w.act (.step (.call id) expired)).IsPatient id expiries

theorem isPatient_replicate (w : World) (id : CallId) (n : Nat) : w.IsPatient id (List.replicate n false) := by
  induction n generalizing w with
  | zero => trivial
  | succ n ih => exact ⟨fun heq => by contradiction, ih _⟩

structure Persists (now : Duration) (Q : Nat → Memory → Loopback → Store → CallStage → Prop) : Prop where
  setup : ∀ {n memory net store stage}, Q n memory net store stage →
    store.fabric = .loopback ∧ store.cancelled = false
  move : ∀ {w : World} {n store stage expired}, w.now = now → Q n w.memory w.net store stage →
    (expired = true → stage.awaitsEvent = false) →
    w.Brings (stage.next store ⟨false, expired, w.now⟩) fun memory net stage' =>
      ∃ m, m ≤ n - 1 ∧ Q m memory net (stage.update store) stage'

theorem Persists.after {Q : Nat → Memory → Loopback → Store → CallStage → Prop} {now : Duration}
    (hq : Persists now Q) {expiries : List Bool} (hclock : w.now = now) (h : w.Stands id s store stage)
    (hnow : Q n w.memory w.net store stage)
    (hpatient : w.IsPatient id expiries) :
    ∃ m store' stage', m ≤ n - expiries.length ∧ (w.after (moves id expiries)).Stands id s store' stage' ∧
      Q m (w.after (moves id expiries)).memory (w.after (moves id expiries)).net store' stage' := by
  induction expiries generalizing w n store stage with
  | nil => exact ⟨n, store, stage, Nat.le_refl n, h, hnow⟩
  | cons expired expiries ih =>
    obtain ⟨hfirst, hrest⟩ := hpatient
    rw [h.calls] at hfirst
    obtain ⟨hfabric, hcancelled⟩ := hq.setup hnow
    obtain ⟨stage', hstands, m, hm, hthen⟩ := h.move hfabric hcancelled (hq.move hclock hnow hfirst)
    have hclock' : (w.act (.step (.call id) expired)).now = now := (now_step w (.call id) expired).trans hclock
    obtain ⟨m', store', stage'', hm', hlast⟩ := ih hclock' hstands hthen hrest
    refine ⟨m', store', stage'', ?_, hlast⟩
    rw [List.length_cons]
    omega

theorem persists_opens (hwilling : store.IsWilling) (hfree : store.initiating = false)
    {now : Duration} (htimely : store.config.session.IsTimely now) (memory : Memory) :
    Persists now fun n memory' net current stage => memory' = memory ∧ Opens store net n current stage where
  setup := by
    rintro n memory' net current stage ⟨-, h⟩
    cases h <;> exact ⟨hwilling.fabric, hwilling.cancelled⟩
  move := by
    rintro w n current stage expired rfl ⟨hmemory, h⟩ hpatient
    obtain ⟨hkept, hopens⟩ := opens_move hwilling hfree htimely h hpatient
    exact ⟨n - 1, Nat.le_refl _, hkept.trans hmemory, hopens⟩

theorem persists_nears (hwilling : store.IsWilling) (hfree : store.initiating = false)
    {now : Duration} (htimely : store.config.session.IsTimely now) (k : ConnectionId) :
    Persists now fun n memory net current stage => Nears store memory net k n current stage where
  setup := by
    rintro n memory net current stage h
    cases h <;> exact ⟨hwilling.fabric, hwilling.cancelled⟩
  move := by
    rintro w n current stage expired rfl h hpatient
    exact nears_move hwilling hfree htimely h hpatient

theorem Opens.connect {net : Loopback} (h : Opens store net 0 current stage) :
    ∃ out, net.connect store.config.port = .ok out := by
  cases h with
  | initiate h =>
    cases h with
    | awaitRequest hchannel hlistening => exact Loopback.connect_of_listening hlistening

theorem nears_connect {memory : Memory} {net net' : Loopback} (h : Opens store net n current stage)
    (hfits : store.Fits memory) (hconnect : net.connect store.config.port = .ok (k, net')) :
    Nears store memory net' k 18 current stage := by
  obtain ⟨listener, hlistener, hlistening⟩ := Loopback.listening_of_connect hconnect
  have hbound : net.listeners[store.config.port]? ≠ none := by simp [hlistener]
  cases h with
  | check hfree => exact absurd hfree hbound
  | claim hfree => exact absurd hfree hbound
  | initiate h =>
    cases h with
    | openChannel hfree => exact absurd hfree hbound
    | bind hfree => exact absurd hfree hbound
    | listen hchannel hheld =>
      obtain rfl := Option.some.inj (hheld.symm.trans hlistener)
      contradiction
    | awaitRequest hchannel hheld =>
      obtain ⟨hpending, hlink, hchannel'⟩ := Loopback.connect_listening hconnect hheld hchannel
      exact .initiate (.awaitRequest ⟨hfits, hlink⟩ hpending hchannel')

structure EndedWell (w : World) (id : CallId) (s : StoreId) (store : Store) (k : ConnectionId) : Prop where
  ended : w.calls[id]? = some ⟨s, .over (.ok ())⟩
  ready : ∃ active, w.stores[s]? = some { store with active := some active } ∧ active.endpoint.handle = k ∧
    Told store w.memory w.net k active.region [] ∧ (Stage.metadata active.region).Describes active.region ∧
      ∀ limit, (w.receiveMetadata k limit).1 = .ok (Stage.metadata active.region)

theorem Nears.endedWell (hstands : w.Stands id s current stage)
    (h : Nears store w.memory w.net k 0 current stage) : w.EndedWell id s store k := by
  cases h with
  | @ended active hendpoint h =>
    have htold : Told store w.memory w.net k active.region [] :=
      ⟨⟨h.storage.houses, h.storage.length⟩, h.connected⟩
    refine ⟨hstands.calls, active, hstands.stores, hendpoint, htold, Stage.describes_metadata h.storage.houses, ?_⟩
    intro limit
    simp only [receiveMetadata, receive, Loopback.receive_connected h.connected]
    exact Metadata.decode_encode _

/--
Whether a call that was just started ends well if exactly one peer connects to its port once it listens, nobody else
acts, and no time limit of a wait for an event passes: the port is open after five moves, and the call ends no more
than eighteen moves after the peer has connected.
-/
structure EndsWell (w : World) (id : CallId) (s : StoreId) (store : Store) : Prop where
  listens : ∀ early, w.IsPatient id early → 5 ≤ early.length →
    ∃ k connected, (w.after (moves id early)).connect store.config.port = .ok (k, connected)
  ends : ∀ early late k connected, w.IsPatient id early →
    (w.after (moves id early)).connect store.config.port = .ok (k, connected) → connected.IsPatient id late →
      18 ≤ late.length → (connected.after (moves id late)).EndedWell id s store k

theorem EndsWell.exists_endedWell (h : w.EndsWell id s store) :
    ∃ k connected, (w.after (moves id (List.replicate 5 false))).connect store.config.port = .ok (k, connected) ∧
      (connected.after (moves id (List.replicate 18 false))).EndedWell id s store k := by
  obtain ⟨k, connected, hconnect⟩ := h.listens _ (isPatient_replicate w id 5) (by simp)
  have hended := h.ends _ _ k connected (isPatient_replicate w id 5) hconnect (isPatient_replicate connected id 18)
  exact ⟨k, connected, hconnect, hended (by simp)⟩

theorem endsWell_of_isTimely (hwilling : store.IsWilling) (hfree : store.initiating = false)
    (htimely : store.config.session.IsTimely w.now) (hport : w.net.listeners[store.config.port]? = none)
    (hfits : store.Fits w.memory) (hstands : w.Stands id s store .check) : w.EndsWell id s store := by
  have hopens : ∀ early, w.IsPatient id early → ∃ n current stage, n ≤ 5 - early.length ∧
      (w.after (moves id early)).Stands id s current stage ∧ (w.after (moves id early)).memory = w.memory ∧
        Opens store (w.after (moves id early)).net n current stage :=
    fun early hpatient =>
      (persists_opens hwilling hfree htimely w.memory).after rfl hstands ⟨rfl, .check hport⟩ hpatient
  constructor
  · intro early hpatient hlong
    obtain ⟨n, current, stage, hn, -, -, h⟩ := hopens early hpatient
    obtain rfl : n = 0 := by omega
    obtain ⟨⟨k, net⟩, hconnect⟩ := Opens.connect h
    exact ⟨k, { w.after (moves id early) with net }, by rw [World.connect, hconnect]; rfl⟩
  · intro early late k connected hearly hconnect hlate hlong
    obtain ⟨n, current, stage, -, hstands', hmemory, h⟩ := hopens early hearly
    obtain ⟨net, hnet, rfl⟩ := connect_eq_ok hconnect
    have hconnected : ({ w.after (moves id early) with net } : World).Stands id s current stage :=
      ⟨hstands'.calls, hstands'.stores⟩
    have hclock : ({ w.after (moves id early) with net } : World).now = w.now := now_moves w id early
    obtain ⟨m, current', stage', hm, hstands'', hend⟩ := (persists_nears hwilling hfree htimely k).after hclock
      hconnected (nears_connect h (hmemory ▸ hfits) hnet) hlate
    obtain rfl : m = 0 := by omega
    exact Nears.endedWell hstands'' hend

def IsVacant (w : World) (s : StoreId) : Prop :=
  ∀ (id : CallId) (call : Call), w.calls[id]? = some call → call.store = s → call.result?.isSome

theorem isVacant_of_empty (h : w.calls = ∅) : w.IsVacant s := by
  intro id call hcall
  rw [h] at hcall
  simp at hcall

theorem Clocked.not_initiating (hc : w.Clocked) (hstore : w.stores[s]? = some store) (hvacant : w.IsVacant s)
    (hsound : store.config.IsSound w.now) : store.initiating = false := by
  rw [← Bool.not_eq_true]
  intro hclaimed
  rcases hc.stores s store hstore hclaimed with ⟨id, stage, hcall, hclaims⟩ | hbroken
  · have hover := hvacant id _ hcall rfl
    cases stage <;> contradiction
  · exact hbroken hsound

theorem initiation_ends_well_iff (h : w.Reachable) (hstore : w.stores[s]? = some store)
    (hfabric : store.fabric = .loopback) (hidle : store.active = none) (hcancelled : store.cancelled = false)
    (hvacant : w.IsVacant s) (hport : w.net.isBound store.config.port = false)
    (hwaits : store.config.session.Waits) (hfits : store.Fits w.memory) :
    (w.startInitiation s).2.EndsWell (w.startInitiation s).1 s store ↔
      store.config.session.IsTimely w.now := by
  have hstands : (w.startInitiation s).2.Stands (w.startInitiation s).1 s store .check :=
    ⟨TreeMap.getElem?_insert_self, hstore⟩
  constructor
  · intro hends
    have hstarted : (w.startInitiation s).2.Reachable := by
      have hact : w.act (.initiate s) = (w.startInitiation s).2 := by simp only [act, withStore, hstore]
      exact hact ▸ h.act (.initiate s)
    obtain ⟨k, connected, hconnect, hwell⟩ := hends.exists_endedWell
    have hconnected : connected.Reachable :=
      act_connect hconnect ▸ (hstarted.after _).act (.connect store.config.port)
    obtain ⟨active, hready, -⟩ := hwell.ready
    have hnow : (connected.after (moves (w.startInitiation s).1 (List.replicate 18 false))).now = w.now := by
      obtain ⟨net, -, rfl⟩ := connect_eq_ok hconnect
      exact (now_moves ..).trans (now_moves ..)
    rw [← hnow]
    exact (hconnected.after _).clocked.calls _ _ { store with active := some active } hwell.ended hready
  · intro htimely
    have hclocked := h.clocked
    have hwilling : store.IsWilling := ⟨hfabric, hidle, hcancelled, hwaits, hclocked.long s store hstore⟩
    obtain ⟨block, memory, -, hallocate⟩ := hfits.allocates
    have hfree := hclocked.not_initiating hstore hvacant ⟨htimely, Memory.pageSize_ne_zero_of_allocate hallocate⟩
    have hunbound : w.net.listeners[store.config.port]? = none := by
      rwa [Loopback.isBound, TreeMap.contains_eq_isSome_getElem?, Option.isSome_eq_false_iff,
        Option.isNone_iff_eq_none] at hport
    exact endsWell_of_isTimely hwilling hfree htimely hunbound hfits hstands

def sampleFailed : World :=
  sample.after (sampleMoves 3 ++ [.connect 7000, .write 2 9 0 0 [7], .hangUp 2] ++ sampleMoves 7 ++ [.endCall 2])

theorem reachable_sampleFailed : sampleFailed.Reachable := reachable_sample.after _

set_option maxRecDepth 10000 in
theorem initiation_ends_well_after_failure :
    let store := { sampleStore with initiating := false }
    let started := (sampleFailed.startInitiation 1).2
    sampleFailed.Reachable ∧ sampleFailed.stores[1]? = some store ∧ sampleFailed.IsVacant 1 ∧
      sampleFailed.net.isBound 7000 = false ∧ store.Fits sampleFailed.memory ∧ started.EndsWell 3 1 store ∧
        ∃ k connected, (started.after (moves 3 (List.replicate 5 false))).connect 7000 = .ok (k, connected) ∧
          (connected.after (moves 3 (List.replicate 18 false))).EndedWell 3 1 store k := by
  intro store started
  have hstore : sampleFailed.stores[1]? = some store := by rfl
  have hvacant : sampleFailed.IsVacant 1 := isVacant_of_empty (by rfl)
  have hport : sampleFailed.net.isBound 7000 = false := by rfl
  have hfits : store.Fits sampleFailed.memory := by
    have hok : (Storage.allocate sampleFailed.memory .standard .keyValue 16).isOk := by decide +kernel
    exact hok
  have htimely : store.config.session.IsTimely sampleFailed.now := ⟨by rintro limit ⟨⟩, by decide +kernel⟩
  have hends : started.EndsWell 3 1 store := (initiation_ends_well_iff reachable_sampleFailed hstore rfl rfl rfl hvacant
    hport (by rintro limit ⟨⟩) hfits).mpr htimely
  exact ⟨reachable_sampleFailed, hstore, hvacant, hport, hfits, hends, hends.exists_endedWell⟩

def sampleEndless : Store :=
  { sampleStore with
    config := { sampleStore.config with session := { eventTimeout := some (.ofSeconds ((1 <<< 64) - 1)) } }
    initiating := false }

set_option maxRecDepth 10000 in
theorem initiation_breaks_off :
    let w := (initial (.above 4096 4096) .zero).after [.createStore .keyValue sampleEndless.config .loopback]
    let started := (w.startInitiation 1).2
    let broken := ((started.after (moves 2 (List.replicate 5 false))).act (.connect 7000)).after
      (moves 2 (List.replicate 18 false))
    w.Reachable ∧ w.stores[1]? = some sampleEndless ∧ w.IsVacant 1 ∧ w.net.isBound 7000 = false ∧
      sampleEndless.config.session.Waits ∧ sampleEndless.Fits w.memory ∧ ¬started.EndsWell 2 1 sampleEndless ∧
        broken.result? (.call 2) = some (.error .faulted) ∧
        ((broken.act (.initiate 1)).after (moves 3 [false, false])).result? (.call 3) =
          some (.error (.failed (Call.tooLate "initiating"))) := by
  intro w started broken
  have hvacant : w.IsVacant 1 := isVacant_of_empty (by rfl)
  have hwaits : sampleEndless.config.session.Waits := by
    rintro limit ⟨⟩
    decide
  have hfits : sampleEndless.Fits w.memory := by
    have hok : (Storage.allocate w.memory .standard .keyValue 16).isOk := by decide +kernel
    exact hok
  have hbroken : broken.result? (.call 2) = some (.error .faulted) := by decide +kernel
  have hclaimed : ((broken.act (.initiate 1)).after (moves 3 [false, false])).result? (.call 3) =
      some (.error (.failed (Call.tooLate "initiating"))) := by decide +kernel
  refine ⟨⟨.above 4096 4096, .zero, _, rfl⟩, rfl, hvacant, rfl, hwaits, hfits, fun hends => ?_, hbroken, hclaimed⟩
  obtain ⟨k, connected, hconnect, hended⟩ := hends.exists_endedWell
  have hcalls : broken.calls[2]? = some ⟨1, .over (.ok ())⟩ := by
    rw [← act_connect hconnect] at hended
    exact hended.ended
  have hover : broken.result? (.call 2) = some (.ok ()) := by simp only [result?, hcalls, Call.result?]
  exact absurd (hbroken.symm.trans hover) (by simp)

end World

end RemoteSlots
