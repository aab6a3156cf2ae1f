import RemoteSlots.Proofs.World.SlotAccess

/-!
This module shows that an append log hands its entries to a reader in the order in which they were written, lap
after lap, as long as the reader does not fall behind the writer by more than the capacity.
-/

namespace RemoteSlots

namespace Cursor

def place (capacity : Nat) : (pulls : Nat) → Nat
  | 0 => capacity
  | pulls + 1 => pulls % capacity

theorem advance_place {capacity : Nat} (hpos : 0 < capacity) (pulls : Nat) :
    advance capacity (place capacity pulls) = place capacity (pulls + 1) := by
  cases pulls with
  | zero =>
    rw [place, place, advance, if_pos (Nat.le_succ capacity), Nat.zero_mod]
  | succ pulls =>
    have hlt := Nat.mod_lt pulls hpos
    have hdiv := Nat.div_add_mod pulls capacity
    rw [place, place, advance]
    split
    · next hend =>
      -- The pull before was the last one of a lap.
      have hlap : pulls + 1 = capacity * (pulls / capacity + 1) := by
        rw [Nat.mul_succ]
        omega
      rw [hlap, Nat.mul_mod_right]
    · next hin =>
      have hstep : pulls + 1 = capacity * (pulls / capacity) + (pulls % capacity + 1) := by omega
      rw [hstep, Nat.mul_add_mod, Nat.mod_eq_of_lt (Nat.not_le.mp hin)]

theorem pull_eq {memory : Memory} {storage : Storage .append} (hfits : storage.Fits memory)
    (hpos : 0 < storage.capacity) (position : Nat) :
    pull memory storage position =
      (memory.word storage.block (advance storage.capacity position), advance storage.capacity position) := by
  have hslot := Storage.get?_eq_ofFn hfits (advance_lt position hpos)
  simp only [Layout.words, Nat.mul_one] at hslot
  simp only [pull, hslot, Option.map_some, Option.getD_some, Slot.loggedValue, Prod.mk.injEq, and_true]
  exact Vector.getElem_ofFn Nat.zero_lt_one

end Cursor

theorem mod_ne_mod {capacity v n : Nat} (hlt : v < n) (hle : n < v + capacity) : v % capacity ≠ n % capacity := by
  intro heq
  have hdvd : capacity ∣ n - v := Nat.dvd_of_mod_eq_zero (Nat.sub_mod_eq_zero_of_mod_eq heq.symm)
  have hlap := Nat.le_of_dvd (by omega) hdvd
  omega

inductive Reader where
  | shared
  | own (position : Nat)

inductive LogEvent where
  | append (value : UInt32) (remote : Bool)
  | pull
  | other (action : Action)

def LogEvent.value? : LogEvent → Option UInt32
  | append value _ => some value
  | pull | other _ => none

namespace Reader

def position (store : Store) : Reader → Nat
  | shared => store.tail
  | own position => position

def IsFresh (store : Store) : Reader → Prop
  | shared => store.tail = store.config.capacity
  | own position => World.openCursor store = .ok position

end Reader

/--
A log at work: where the reader is in the world, and what the producer wrote, oldest first.
-/
structure LogRun where
  world : World
  reader : Reader
  written : List UInt32

namespace LogRun

variable (s : StoreId) (log : Store) (active : Active)

def append (run : LogRun) (value : UInt32) (remote : Bool) : World :=
  let index := run.written.length % log.config.capacity
  if remote then
    (run.world.writeSlot active.endpoint.handle (Stage.metadata active.region) (UInt64.ofNat index)
      Layout.append.size [value]).2
  else
    run.world.act (.putSlot s index [value])

def pull (run : LogRun) : Option UInt32 × World × Reader :=
  match run.world.stores[s]? with
  | none => (none, run.world, run.reader)
  | some store =>
    match run.reader with
    | .shared =>
      match run.world.pull store s with
      | .ok (value, w) => (some value, w, .shared)
      | .error _ => (none, run.world, .shared)
    | .own position =>
      match run.world.pullAt store position with
      | .ok (value, position) => (some value, run.world, .own position)
      | .error _ => (none, run.world, .own position)

def next (run : LogRun) : LogEvent → LogRun
  | .append value remote =>
    { run with world := run.append s log active value remote, written := run.written ++ [value] }
  | .pull => { run with world := (run.pull s).2.1, reader := (run.pull s).2.2 }
  | .other action => { run with world := run.world.act action }

def pulls (run : LogRun) : List LogEvent → List (Nat × Option UInt32)
  | [] => []
  | .pull :: events => (run.written.length, (run.pull s).1) :: (run.next s log active .pull).pulls events
  | event :: events => (run.next s log active event).pulls events

def Spares (run : LogRun) : LogEvent → Prop
  | .other action =>
    (run.world.act action).memory.blocks[active.region.block]? = run.world.memory.blocks[active.region.block]? ∧
      ∀ store, run.world.stores[s]? = some store → ∃ store', (run.world.act action).stores[s]? = some store' ∧
        run.reader.position store' = run.reader.position store
  | _ => True

def IsUndisturbed (run : LogRun) : List LogEvent → Prop
  | [] => True
  | event :: events => run.Spares s active event ∧ (run.next s log active event).IsUndisturbed events

theorem spares_connect (run : LogRun) (port : UInt16) : run.Spares s active (.other (.connect port)) := by
  have hsame : (run.world.act (.connect port)).memory = run.world.memory ∧
      (run.world.act (.connect port)).stores = run.world.stores := by
    simp only [World.act, World.connect]
    rcases run.world.net.connect port with failure | ⟨peer, net⟩
    · exact ⟨rfl, rfl⟩
    · exact ⟨rfl, rfl⟩
  exact ⟨by rw [hsame.1], fun store hstore => ⟨store, by rw [hsame.2, hstore], rfl⟩⟩

structure IsAtWork (run : LogRun) (count : Nat) : Prop where
  reachable : run.world.Reachable
  store : ∃ store, run.world.stores[s]? = some store ∧ log.SameSetup store ∧ store.active = some active ∧
    run.reader.position store = Cursor.place log.config.capacity count
  words : ∀ v, v < run.written.length → run.written.length ≤ v + log.config.capacity →
    run.written[v]? = some (run.world.memory.word active.region.block (v % log.config.capacity))

namespace IsAtWork

variable {s : StoreId} {log : Store} {active : Active} {run : LogRun} {count : Nat}

theorem fills {w : World} {store : Store} (hstorage : World.IsStorage w.memory store active.region.toExtent)
    (hsetup : log.SameSetup store) (hlayout : log.layout = .append) :
    Storage.Fills (⟨log.config.capacity, active.region.block⟩ : Storage .append) active.region.toExtent where
  block := rfl
  length := by rw [hstorage.length, Store.bufferSize, hsetup.config, hsetup.layout, hlayout]

theorem capacity_pos {w : World} {store : Store} (hstorage : World.IsStorage w.memory store active.region.toExtent)
    (hsetup : log.SameSetup store) : 0 < log.config.capacity := by
  have hpos := hstorage.houses.pos
  rw [hstorage.length, Store.bufferSize, hsetup.config] at hpos
  exact Nat.pos_of_mul_pos_right hpos

theorem storage_eq {store : Store} (hsetup : log.SameSetup store) (hactive : store.active = some active)
    (layout : Layout) : store.storage layout = .ok ⟨log.config.capacity, active.region.block⟩ := by
  rw [World.storage_of_active hactive, hsetup.config]

theorem toWords_entry {store : Store} (hlayout : store.layout = .append) (value : UInt32) :
    store.layout.words = 1 ∧ (Slot.load [value] : Slot store.layout).toWords = [value] := by
  have hwords : store.layout.words = 1 := by rw [hlayout, Layout.words]
  exact ⟨hwords, Slot.toWords_load (by rw [hwords, List.length_singleton])⟩

theorem put_entry {w : World} {store : Store} (hsetup : log.SameSetup store) (hactive : store.active = some active)
    (hlayout : store.layout = .append) {i : Nat} (hi : i < log.config.capacity) (value : UInt32) :
    w.putSlot store i (Slot.load [value] : Slot store.layout) =
      .ok { w with memory := w.memory.store active.region.block i [value] } := by
  obtain ⟨hwords, hentry⟩ := toWords_entry hlayout value
  have hput : Storage.put w.memory (⟨log.config.capacity, active.region.block⟩ : Storage store.layout) i
      (Slot.load [value]) = _ := Storage.put_eq_ok w.memory hi _
  rw [hentry, hwords, Nat.mul_one] at hput
  simp only [World.putSlot, storage_eq hsetup hactive, bind, Except.bind, hput]
  rfl

theorem write_entry {w : World} {store : Store} (h : w.Serves store active) (hsetup : log.SameSetup store)
    (hlayout : store.layout = .append) {i : Nat} (hi : i < log.config.capacity) (value : UInt32) :
    w.writeSlot active.endpoint.handle (Stage.metadata active.region) (UInt64.ofNat i) Layout.append.size [value] =
      (.ok (), { w with
        memory := w.memory.store active.region.block i [value]
        net := w.net.modifyLink active.endpoint.handle fun link => { link with psn := link.psn + 1 } }) := by
  obtain ⟨hwords, hentry⟩ := toWords_entry hlayout value
  have hsize : store.layout.size = Layout.append.size := congrArg Layout.size hlayout
  have hi' : i < store.config.capacity := hsetup.config ▸ hi
  -- The storage lies in the address space, and so do the addresses of its slots.
  have hend := h.fills.end_le hi'
  have hbound : active.region.address + active.region.length ≤ 2 ^ 64 := h.storage.houses.bound
  rw [hwords, Nat.mul_one] at hend
  have hword : i < UInt64.size := by
    unfold UInt64.size
    omega
  have hindex : (UInt64.ofNat i).toNat = i := UInt64.toNat_ofNat_of_lt' hword
  have haddress : active.region.address + (UInt64.ofNat i).toNat * store.layout.size < 2 ^ 64 := by
    rw [hindex, hsize, Layout.size, Layout.words]
    omega
  obtain ⟨memory, hput, hwrite⟩ := h.writeSlot_eq haddress (hindex.symm ▸ hi') (Slot.load [value])
  rw [hindex, Storage.put_eq_ok w.memory hi', hentry, hwords, Nat.mul_one] at hput
  injection hput with hput
  subst hput
  rwa [hentry, hsize] at hwrite

theorem pull (h : run.IsAtWork s log active count) (hlayout : log.layout = .append) :
    ∃ w reader, run.pull s =
        (some (run.world.memory.word active.region.block (count % log.config.capacity)), w, reader) ∧
      IsAtWork s log active { run with world := w, reader } (count + 1) := by
  obtain ⟨store, hstore, hsetup, hactive, hposition⟩ := h.store
  have hstorage := h.reachable.housed.stores s store active hstore hactive
  have hfits := (fills hstorage hsetup hlayout).fits hstorage.houses.toBacks
  have hpos := capacity_pos hstorage hsetup
  have hpull := Cursor.pull_eq hfits hpos (Cursor.place log.config.capacity count)
  rw [Cursor.advance_place hpos] at hpull
  rcases hreader : run.reader with _ | position
  · have htail : store.tail = Cursor.place log.config.capacity count := by rw [← hposition, hreader, Reader.position]
    let w : World :=
      { run.world with stores := run.world.stores.insert s { store with tail := count % log.config.capacity } }
    have hout : run.world.pull store s =
        .ok (run.world.memory.word active.region.block (count % log.config.capacity), w) := by
      simp only [World.pull, storage_eq hsetup hactive, bind, Except.bind, htail, hpull]
      rfl
    refine ⟨w, .shared, by simp only [LogRun.pull, hstore, hreader, hout], ?_⟩
    constructor
    · have hact := h.reachable.act (.pull s)
      simpa only [World.act, World.withStore, hstore, hout, Except.map, World.orElse] using hact
    · refine ⟨_, Std.TreeMap.getElem?_insert_self, ⟨hsetup.layout, hsetup.config, hsetup.fabric⟩, hactive, rfl⟩
    · exact h.words
  · have hown : position = Cursor.place log.config.capacity count := by rw [← hposition, hreader, Reader.position]
    have hout : World.pullAt run.world store position =
        .ok (run.world.memory.word active.region.block (count % log.config.capacity),
          count % log.config.capacity) := by
      simp only [World.pullAt, storage_eq hsetup hactive, bind, Except.bind, hown, hpull]
      rfl
    refine ⟨run.world, .own (count % log.config.capacity), by simp only [LogRun.pull, hstore, hreader, hout], ?_⟩
    exact ⟨h.reachable, ⟨store, hstore, hsetup, hactive, rfl⟩, h.words⟩

theorem append (h : run.IsAtWork s log active count) (hlayout : log.layout = .append) {value : UInt32}
    {remote : Bool} (hremote : remote → log.fabric = .loopback) :
    IsAtWork s log active (run.next s log active (.append value remote)) count := by
  obtain ⟨store, hstore, hsetup, hactive, hposition⟩ := h.store
  have hstorage := h.reachable.housed.stores s store active hstore hactive
  have hfills := fills hstorage hsetup hlayout
  have hpos := capacity_pos hstorage hsetup
  have hplace := Nat.mod_lt run.written.length hpos
  obtain ⟨hreach, hstores, hmemory⟩ : (run.append s log active value remote).Reachable ∧
      (run.append s log active value remote).stores = run.world.stores ∧
      (run.append s log active value remote).memory =
        run.world.memory.store active.region.block (run.written.length % log.config.capacity) [value] := by
    have hlayout' := hsetup.layout.trans hlayout
    unfold LogRun.append
    cases remote with
    | false =>
      have hact := h.reachable.act (.putSlot s (run.written.length % log.config.capacity) [value])
      simp only [World.act, World.withStore, hstore, put_entry hsetup hactive hlayout' hplace] at hact ⊢
      exact ⟨hact, rfl, rfl⟩
    | true =>
      have hserves := h.reachable.serves hstore (hsetup.fabric.trans (hremote rfl)) hactive
      have hwrite := write_entry hserves hsetup hlayout' hplace value
      have hact : (run.world.writeSlot active.endpoint.handle (Stage.metadata active.region)
          (UInt64.ofNat (run.written.length % log.config.capacity)) Layout.append.size [value]).2.Reachable :=
        h.reachable.act (.write ..)
      rw [hwrite] at hact
      rw [if_pos rfl, hwrite]
      exact ⟨hact, rfl, rfl⟩
  constructor
  · exact hreach
  · exact ⟨store, by rw [LogRun.next, hstores, hstore], hsetup, hactive, hposition⟩
  · simp only [LogRun.next, List.length_append, List.length_singleton, hmemory]
    intro v hv hlap
    have hfits : log.config.capacity * 1 ≤ run.world.memory.length active.region.block / 4 :=
      hfills.fits hstorage.houses.toBacks
    rw [Memory.word_store, List.length_singleton]
    by_cases hlast : v = run.written.length
    · subst hlast
      rw [List.getElem?_concat_length, if_pos ⟨rfl, Nat.le_refl _, by omega, by omega⟩, Nat.sub_self]
      rfl
    · have hlt : v < run.written.length := by omega
      have hne : v % log.config.capacity ≠ run.written.length % log.config.capacity := mod_ne_mod hlt (by omega)
      rw [List.getElem?_append_left hlt, if_neg (by omega)]
      exact h.words v hlt (by omega)

theorem other (h : run.IsAtWork s log active count) {action : Action}
    (hspares : run.Spares s active (.other action)) :
    IsAtWork s log active (run.next s log active (.other action)) count := by
  obtain ⟨store, hstore, hsetup, hactive, hposition⟩ := h.store
  obtain ⟨hblock, hkept⟩ := hspares
  obtain ⟨store', hstore', hsame⟩ := hkept store hstore
  obtain ⟨hsound, htidy⟩ := h.reachable.sound
  have hretains := World.retains_act hsound htidy hstore hstore'
  constructor
  · exact h.reachable.act action
  · refine ⟨store', hstore', ?_, hretains.active active hactive, hsame.trans hposition⟩
    exact ⟨hretains.setup.layout.trans hsetup.layout, hretains.setup.config.trans hsetup.config,
      hretains.setup.fabric.trans hsetup.fabric⟩
  · intro v hv hlap
    rw [LogRun.next, Memory.word, hblock]
    exact h.words v hv hlap

theorem delivers (h : run.IsAtWork s log active count) (hlayout : log.layout = .append) {events : List LogEvent}
    (hremote : ∀ value, .append value true ∈ events → log.fabric = .loopback)
    (hcalm : run.IsUndisturbed s log active events) {r n : Nat} {value : Option UInt32}
    (hpulled : (run.pulls s log active events)[r]? = some (n, value)) (hwritten : count + r < n)
    (hlap : n ≤ count + r + log.config.capacity) :
    ∃ x, (run.written ++ events.filterMap LogEvent.value?)[count + r]? = some x ∧ value = some x := by
  induction events generalizing run count r with
  | nil => contradiction
  | cons event events ih =>
    obtain ⟨hspares, hcalm⟩ := hcalm
    have hremote' := fun value hmem => hremote value (List.mem_cons_of_mem event hmem)
    cases event with
    | append entry remote =>
      have hnext : IsAtWork s log active (run.next s log active (.append entry remote)) count :=
        h.append hlayout fun heq => hremote entry (heq ▸ List.mem_cons_self ..)
      obtain ⟨x, hx, heq⟩ := ih hnext hremote' hcalm hpulled hwritten hlap
      refine ⟨x, ?_, heq⟩
      rw [LogRun.next, List.append_assoc] at hx
      exact hx
    | other action => exact ih (h.other hspares) hremote' hcalm hpulled hwritten hlap
    | pull =>
      obtain ⟨w, reader, hpull, hnext⟩ := h.pull hlayout
      have hrun : run.next s log active .pull = { run with world := w, reader } := by rw [LogRun.next, hpull]
      cases r with
      | zero =>
        -- This is the pull in question.
        simp only [LogRun.pulls, List.getElem?_cons_zero, hpull, Option.some.injEq, Prod.mk.injEq] at hpulled
        obtain ⟨rfl, rfl⟩ := hpulled
        refine ⟨_, ?_, rfl⟩
        rw [Nat.add_zero] at hwritten hlap ⊢
        rw [List.getElem?_append_left hwritten]
        exact h.words count hwritten hlap
      | succ r =>
        rw [LogRun.pulls, List.getElem?_cons_succ] at hpulled
        rw [hrun] at hpulled hcalm
        have hcount : count + (r + 1) = count + 1 + r := by omega
        rw [hcount] at hwritten hlap ⊢
        exact ih hnext hremote' hcalm hpulled hwritten hlap

end IsAtWork

end LogRun

theorem log_delivers_in_order {w : World} (h : w.Reachable) {s : StoreId} {log : Store}
    (hstore : w.stores[s]? = some log) (hlayout : log.layout = .append) {active : Active}
    (hactive : log.active = some active) {reader : Reader} (hfresh : reader.IsFresh log) {events : List LogEvent}
    (hremote : ∀ value, .append value true ∈ events → log.fabric = .loopback)
    (hcalm : LogRun.IsUndisturbed s log active ⟨w, reader, []⟩ events) (r : Nat) {written : Nat}
    {value : Option UInt32}
    (hpulled : (LogRun.pulls s log active ⟨w, reader, []⟩ events)[r]? = some (written, value))
    (hwritten : r + 1 ≤ written) (hlap : written < r + 1 + log.config.capacity) :
    ∃ x, (events.filterMap LogEvent.value?)[r]? = some x ∧ value = some x := by
  have hstart : LogRun.IsAtWork s log active ⟨w, reader, []⟩ 0 := by
    refine ⟨h, ⟨log, hstore, ⟨rfl, rfl, rfl⟩, hactive, ?_⟩, fun v hv => absurd hv (Nat.not_lt_zero v)⟩
    cases reader with
    | shared => exact hfresh
    | own position =>
      simp only [Reader.IsFresh, World.openCursor, LogRun.IsAtWork.storage_eq ⟨rfl, rfl, rfl⟩ hactive] at hfresh
      injection hfresh with hfresh
      exact hfresh.symm
  have hdelivers := hstart.delivers hlayout hremote hcalm hpulled (by omega) (by omega)
  rwa [List.nil_append, Nat.zero_add] at hdelivers

def sampleLogStart : List Action :=
  [.createStore .append { World.sampleStore.config with capacity := 4 } .loopback, .initiate 1] ++
    World.sampleMoves 5 ++ [.connect 7000] ++ World.sampleMoves 18

def sampleLogActive : Active := ⟨⟨1, 7000⟩, ⟨2, 3⟩, ⟨⟨0, 4096, 16⟩, ⟨4, 4⟩⟩, 0x5ccd#24⟩

def sampleLog : Store :=
  { layout := .append
    config := { World.sampleStore.config with capacity := 4 }
    fabric := .loopback
    cancelled := false
    initiating := false
    active := some sampleLogActive
    tail := 4
    dropped := false }

def sampleLogEvents : List LogEvent :=
  [.append 10 true, .append 11 false, .pull, .append 12 true, .pull, .pull, .append 13 true, .append 14 true,
    .append 15 true, .other (.connect 7000), .pull, .pull]

set_option maxRecDepth 10000 in
theorem log_delivers_in_order_second_lap :
    let w := (World.initial (.above 4096 4096) .zero).after sampleLogStart
    let run : LogRun := ⟨w, .shared, []⟩
    w.Reachable ∧ w.stores[1]? = some sampleLog ∧ sampleLog.layout = .append ∧
      sampleLog.active = some sampleLogActive ∧ Reader.shared.IsFresh sampleLog ∧ sampleLog.fabric = .loopback ∧
      run.IsUndisturbed 1 sampleLog sampleLogActive sampleLogEvents ∧
      (run.pulls 1 sampleLog sampleLogActive sampleLogEvents)[4]? = some (6, some 14) ∧
      6 < 4 + 1 + sampleLog.config.capacity ∧
      ∃ x, (sampleLogEvents.filterMap LogEvent.value?)[4]? = some x ∧ some 14 = some x := by
  intro w run
  have hreach : w.Reachable := ⟨.above 4096 4096, .zero, sampleLogStart, rfl⟩
  have hstore : w.stores[1]? = some sampleLog := by rfl
  have hfresh : Reader.shared.IsFresh sampleLog := rfl
  have hcalm : run.IsUndisturbed 1 sampleLog sampleLogActive sampleLogEvents :=
    ⟨trivial, trivial, trivial, trivial, trivial, trivial, trivial, trivial, trivial,
      LogRun.spares_connect .., trivial, trivial, trivial⟩
  have hpulled : (run.pulls 1 sampleLog sampleLogActive sampleLogEvents)[4]? = some (6, some 14) := by
    decide +kernel
  exact ⟨hreach, hstore, rfl, rfl, hfresh, rfl, hcalm, hpulled, by decide,
    log_delivers_in_order hreach hstore rfl rfl hfresh (fun _ _ => rfl) hcalm 4 hpulled (by decide) (by decide)⟩

end RemoteSlots
