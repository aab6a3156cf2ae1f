import Mathlib.Data.List.Nodup
import RemoteSlots.Console.Collector
import RemoteSlots.Proofs.World.Run

/-!
This module shows that the stores of a collector are new ones, all different, when the collector is built.
-/

namespace RemoteSlots

open Console

theorem exists_of_bind_eq_ok {x : Except ε α} {f : α → Except ε β} {result : β} (h : (x >>= f) = .ok result) :
    ∃ value, x = .ok value ∧ f value = .ok result := by
  rcases x with failure | value
  · contradiction
  · exact ⟨value, rfl, h⟩

namespace World

/--
Whether the second world comes about from the first one, and some stores of the loopback fabric are new in it, each
with slots of a layout.
-/
structure Adds (w w' : World) (new : List (StoreId × Layout)) : Prop where
  run : ∃ actions, w' = w.after actions
  lastId_le : w.lastId ≤ w'.lastId
  fresh : ∀ x ∈ new, w.lastId < x.1 ∧ x.1 ≤ w'.lastId
  distinct : (new.map (·.1)).Nodup
  stores : ∀ x ∈ new, ∃ store, w'.stores[x.1]? = some store ∧ store.layout = x.2 ∧ store.fabric = .loopback
  kept : ∀ id ≤ w.lastId, w'.stores[id]? = w.stores[id]?

namespace Adds

variable {w w' w'' : World} {layout : Layout} {id : StoreId} {new others : List (StoreId × Layout)}

theorem nil (w : World) : w.Adds w [] where
  run := ⟨[], rfl⟩
  lastId_le := Nat.le_refl _
  fresh := by simp
  distinct := List.nodup_nil
  stores := by simp
  kept := fun _ _ => rfl

theorem append (h : w.Adds w' new) (h' : w'.Adds w'' others) : w.Adds w'' (new ++ others) where
  run := by
    obtain ⟨actions, rfl⟩ := h.run
    obtain ⟨more, rfl⟩ := h'.run
    exact ⟨actions ++ more, (after_append ..).symm⟩
  lastId_le := Nat.le_trans h.lastId_le h'.lastId_le
  fresh := by
    intro x hx
    rcases List.mem_append.mp hx with hx | hx
    · obtain ⟨hlt, hle⟩ := h.fresh x hx
      exact ⟨hlt, Nat.le_trans hle h'.lastId_le⟩
    · obtain ⟨hlt, hle⟩ := h'.fresh x hx
      exact ⟨Nat.lt_of_le_of_lt h.lastId_le hlt, hle⟩
  distinct := by
    rw [List.map_append]
    refine List.Nodup.append h.distinct h'.distinct ?_
    intro id hid hid'
    obtain ⟨x, hx, rfl⟩ := List.mem_map.mp hid
    obtain ⟨y, hy, heq⟩ := List.mem_map.mp hid'
    have hlt := Nat.lt_of_le_of_lt (h.fresh x hx).2 (h'.fresh y hy).1
    rw [heq] at hlt
    exact Nat.lt_irrefl _ hlt
  stores := by
    intro x hx
    rcases List.mem_append.mp hx with hx | hx
    · rw [h'.kept x.1 (h.fresh x hx).2]
      exact h.stores x hx
    · exact h'.stores x hx
  kept := by
    intro id hid
    rw [h'.kept id (Nat.le_trans hid h.lastId_le), h.kept id hid]

theorem createStore {config : StoreConfig} (h : w.createStore layout config .loopback = .ok (id, w')) :
    w.Adds w' [(id, layout)] := by
  have hact : w' = w.act (.createStore layout config .loopback) := by
    rw [act, h]
    rfl
  obtain ⟨store, hnew, h⟩ := exists_of_bind_eq_ok h
  obtain ⟨rfl, rfl⟩ := Prod.mk.inj (Except.ok.inj h)
  have hstore := (Store.eq_of_new hnew).2
  exact {
    run := ⟨[.createStore layout config .loopback], hact⟩
    lastId_le := Nat.le_succ _
    fresh := by simp
    distinct := List.nodup_singleton _
    stores := by
      intro x hx
      obtain rfl := List.mem_singleton.mp hx
      refine ⟨store, ?_, by rw [hstore], by rw [hstore]⟩
      simp
    kept := by
      intro id hid
      rw [getElem?_insert_stores, if_neg (Nat.ne_of_gt (Nat.lt_succ_of_le hid))] }

end Adds

end World

namespace Console

namespace Collector

variable {w w' : World} {arguments : Arguments} {collector : Collector}

theorem adds_buildLists {first count : Nat} {lists : List StoreId}
    (h : buildLists w arguments first count = .ok (lists, w')) : w.Adds w' (lists.map (·, .append)) := by
  induction count generalizing w first lists with
  | zero =>
    obtain ⟨rfl, rfl⟩ := Prod.mk.inj (Except.ok.inj h)
    exact .nil w
  | succ count ih =>
    obtain ⟨⟨list, w₁⟩, hlist, h⟩ := exists_of_bind_eq_ok h
    obtain ⟨⟨lists, w₂⟩, hlists, h⟩ := exists_of_bind_eq_ok h
    obtain ⟨rfl, rfl⟩ := Prod.mk.inj (Except.ok.inj h)
    exact (World.Adds.createStore hlist).append (ih hlists)

def kinds (collector : Collector) : List (StoreId × Layout) :=
  [(collector.keyValue, .keyValue)] ++ [(collector.postcard, .postcard)] ++ collector.lists.map (·, .append)

theorem adds_build (h : build w arguments = .ok (collector, w')) :
    collector.arguments = arguments ∧ w.Adds w' collector.kinds := by
  obtain ⟨⟨keyValue, w₁⟩, hkeyValue, h⟩ := exists_of_bind_eq_ok h
  obtain ⟨⟨postcard, w₂⟩, hpostcard, h⟩ := exists_of_bind_eq_ok h
  obtain ⟨⟨lists, w₃⟩, hlists, h⟩ := exists_of_bind_eq_ok h
  obtain ⟨rfl, rfl⟩ := Prod.mk.inj (Except.ok.inj h)
  exact ⟨rfl, ((World.Adds.createStore hkeyValue).append (.createStore hpostcard)).append (adds_buildLists hlists)⟩

theorem map_fst_kinds (collector : Collector) : collector.kinds.map (·.1) = collector.stores := by
  simp [kinds, stores, Function.comp_def]

end Collector

end Console

end RemoteSlots
