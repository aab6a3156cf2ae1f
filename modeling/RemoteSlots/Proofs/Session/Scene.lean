import RemoteSlots.Proofs.Session.Turns

/-!
This module contains a session at work together with the memory that it writes to, whatever its fabric answers and
whatever lands in memory meanwhile. A world in which only peers act beside the session is such a scene.
-/

namespace RemoteSlots

open Std

def Move.touch (memory : Memory) : Move σ → Memory
  | write block start words _ => memory.store block start words
  | clear block _ => memory.clear block
  | map pages length _ =>
    match memory.allocate pages length with
    | .ok (_, memory) => memory
    | .error _ => memory
  | ask .. | pass _ => memory

inductive Beat where
  | move (expired : Bool) (answers : Answers)
  | cancel (cancelled : Bool)
  | land (block : BlockId) (address : Nat) (words : List UInt32)

def Beat.isMove : Beat → Bool
  | move .. => true
  | _ => false

def Beat.isLate : Beat → Bool
  | move expired _ => expired
  | _ => false

namespace Memory

def beat (memory : Memory) : Beat → Memory
  | .land block address words => memory.storeAt block address words
  | _ => memory

def afterLandings (memory : Memory) (beats : List Beat) : Memory := beats.foldl beat memory

theorem afterLandings_concat (memory : Memory) (beats : List Beat) (last : Beat) :
    memory.afterLandings (beats ++ [last]) = (memory.afterLandings beats).beat last :=
  List.foldl_append

structure SamePlaces (memory memory' : Memory) : Prop where
  base : ∀ b, memory'.base b = memory.base b
  length : ∀ b, memory'.length b = memory.length b
  mapped : ∀ b, memory'.mapped b = memory.mapped b

variable {memory memory' memory'' : Memory} {b : BlockId}

theorem SamePlaces.refl (memory : Memory) : memory.SamePlaces memory := ⟨fun _ => rfl, fun _ => rfl, fun _ => rfl⟩

theorem SamePlaces.trans (h : memory.SamePlaces memory') (h' : memory'.SamePlaces memory'') :
    memory.SamePlaces memory'' where
  base := fun b => (h'.base b).trans (h.base b)
  length := fun b => (h'.length b).trans (h.length b)
  mapped := fun b => (h'.mapped b).trans (h.mapped b)

theorem SamePlaces.symm (h : memory.SamePlaces memory') : memory'.SamePlaces memory where
  base := fun b => (h.base b).symm
  length := fun b => (h.length b).symm
  mapped := fun b => (h.mapped b).symm

theorem samePlaces_modify (memory : Memory) (b : BlockId) {f : Block → Block}
    (hf : ∀ block, (f block).base = block.base ∧ (f block).length = block.length ∧
      (f block).mapped = block.mapped) :
    memory.SamePlaces { memory with blocks := memory.blocks.modify b f } := by
  have hblock : ∀ c : BlockId, (memory.blocks.modify b f)[c]? = memory.blocks[c]? ∨
      ∃ block, memory.blocks[c]? = some block ∧ (memory.blocks.modify b f)[c]? = some (f block) := by
    intro c
    rw [Array.getElem?_modify]
    by_cases heq : b = c
    · rw [if_pos heq]
      rcases memory.blocks[c]? with _ | block
      · exact .inl rfl
      · exact .inr ⟨block, rfl, rfl⟩
    · rw [if_neg heq]
      exact .inl rfl
  constructor
  · intro c
    unfold base
    rcases hblock c with heq | ⟨block, hbefore, hafter⟩
    · rw [heq]
    · rw [hbefore, hafter]
      exact (hf block).1
  · intro c
    unfold length
    rcases hblock c with heq | ⟨block, hbefore, hafter⟩
    · rw [heq]
    · rw [hbefore, hafter]
      exact (hf block).2.1
  · intro c
    unfold mapped
    rcases hblock c with heq | ⟨block, hbefore, hafter⟩
    · rw [heq]
    · rw [hbefore, hafter]
      exact (hf block).2.2

theorem samePlaces_store (memory : Memory) (b : BlockId) (start : Nat) (words : List UInt32) :
    memory.SamePlaces (memory.store b start words) := by
  apply samePlaces_modify
  intro block
  exact ⟨Block.base_storeBelow .., Block.length_storeBelow .., Block.mapped_storeBelow ..⟩

theorem samePlaces_storeAt (memory : Memory) (b : BlockId) (address : Nat) (words : List UInt32) :
    memory.SamePlaces (memory.storeAt b address words) := by
  apply samePlaces_modify
  intro block
  exact ⟨Block.base_storeBelow .., Block.length_storeBelow .., Block.mapped_storeBelow ..⟩

structure AgreesBehind (memory memory' : Memory) (b : BlockId) : Prop where
  places : memory.SamePlaces memory'
  word : ∀ c i, (c = b → 4 ≤ i) → memory'.word c i = memory.word c i

theorem AgreesBehind.refl (memory : Memory) (b : BlockId) : memory.AgreesBehind memory b where
  places := .refl memory
  word := fun _ _ _ => rfl

theorem AgreesBehind.beat (h : memory.AgreesBehind memory' b) (next : Beat) :
    (memory.beat next).AgreesBehind (memory'.beat next) b := by
  cases next with
  | move | cancel => exact h
  | land c address words =>
    constructor
    · exact ((samePlaces_storeAt ..).symm.trans h.places).trans (samePlaces_storeAt ..)
    · intro d i hi
      simp only [Memory.beat]
      rw [word_storeAt, word_storeAt, indexOf, indexOf, h.places.base, h.places.mapped, h.word d i hi]

theorem AgreesBehind.store_front (h : memory.AgreesBehind memory' b) {words : List UInt32}
    (hwords : words.length ≤ 4) : memory.AgreesBehind (memory'.store b 0 words) b := by
  constructor
  · exact h.places.trans (samePlaces_store ..)
  · intro c i hi
    rw [word_store, if_neg, h.word c i hi]
    rintro ⟨rfl, -, hlt, -⟩
    have hle := hi rfl
    omega

end Memory

/--
A session, the memory and the time.
-/
structure Scene where
  session : Session
  memory : Memory
  now : Duration

def Session.upcoming (session : Session) (expired : Bool) (now : Duration) : Move Stage :=
  session.stage.next session.name session.config { cancelled := session.cancelled, expired, now }

namespace Scene

def beat (scene : Scene) : Beat → Scene
  | .move expired answers =>
    { scene with
      session := scene.session.turn (.move expired scene.now answers)
      memory := (scene.session.upcoming expired scene.now).touch scene.memory }
  | .cancel cancelled => { scene with session := scene.session.turn (.cancel cancelled) }
  | .land block address words => { scene with memory := scene.memory.storeAt block address words }

def after (scene : Scene) (beats : List Beat) : Scene := beats.foldl beat scene

def asked (scene : Scene) : List Beat → List Request
  | [] => []
  | .move expired answers :: beats =>
    (scene.session.upcoming expired scene.now).request?.toList ++ asked (scene.beat (.move expired answers)) beats
  | beat :: beats => asked (scene.beat beat) beats

variable (scene : Scene) (beats : List Beat) (last : Beat)

theorem after_concat : scene.after (beats ++ [last]) = (scene.after beats).beat last := List.foldl_append

@[simp]
theorem now_after : (scene.after beats).now = scene.now := by
  induction beats generalizing scene with
  | nil => rfl
  | cons beat beats ih => exact (ih (scene.beat beat)).trans (by cases beat <;> rfl)

theorem asked_append (more : List Beat) :
    scene.asked (beats ++ more) = scene.asked beats ++ (scene.after beats).asked more := by
  induction beats generalizing scene with
  | nil => rfl
  | cons beat beats ih =>
    cases beat with
    | move expired answers =>
      rw [List.cons_append, asked, asked, ih, List.append_assoc]
      rfl
    | cancel cancelled => exact ih _
    | land block address words => exact ih _

end Scene

namespace World

def beats (id : SessionId) (w : World) : Action → List Beat
  | .step (.session other) expired =>
    if other = id then w.sessions[id]?.toList.map fun session => .move expired (w.answers session.fabric) else []
  | .cancelSession other cancelled => if other = id then [.cancel cancelled] else []
  | .write peer _ address key words =>
    (w.net.target? peer address key words.length).toList.map fun region =>
      .land region.extent.block address.toNat words
  | _ => []

def isInScene (id : SessionId) : Action → Bool
  | .step (.session other) _ | .cancelSession other _ => other = id
  | .unmap _ => false
  | action => action.isPeer

variable {w : World} {id : SessionId} {session : Session} {action : Action}

theorem memory_perform (w : World) (fabric : FabricId) (move : Move σ) :
    (w.perform fabric move).2.2.memory = move.touch w.memory := by
  cases move with
  | ask request resume => exact memory_serve ..
  | map pages length resume =>
    simp only [perform, Move.touch]
    rcases w.memory.allocate pages length with halt | ⟨block, memory⟩ <;> rfl
  | _ => rfl

theorem scene_act (h : w.Sound) (hsession : w.sessions[id]? = some session) (hscene : isInScene id action) :
    let scene := Scene.after ⟨session, w.memory, w.now⟩ (w.beats id action)
    (w.act action).sessions[id]? = some scene.session ∧ (w.act action).memory = scene.memory := by
  by_cases hpeer : action.isPeer
  · obtain ⟨⟨_, _, _, heq⟩, -⟩ := act_peer h hpeer
    have hsessions : (w.act action).sessions = w.sessions := by rw [heq]
    rw [hsessions, hsession]
    cases action with
    | connect port =>
      simp only [act, World.connect]
      rcases w.net.connect port with failure | ⟨peer, net⟩ <;> exact ⟨rfl, rfl⟩
    | inject port kind status =>
      simp only [act, World.inject]
      rcases w.net.inject port kind status with failure | net <;> exact ⟨rfl, rfl⟩
    | receive | hangUp => exact ⟨rfl, rfl⟩
    | write peer request address key words =>
      have hmemory : (w.act (.write peer request address key words)).memory = _ :=
        Loopback.write_memory w.net w.memory peer request address key words
      rw [hmemory]
      simp only [beats]
      rcases w.net.target? peer address key words.length with _ | region <;> exact ⟨rfl, rfl⟩
    | _ => contradiction
  · cases action with
    | step task expired =>
      cases task with
      | call => contradiction
      | session other =>
        obtain rfl : other = id := by simpa [isInScene] using hscene
        simp only [act, step, beats, hsession, stepSession, sessions_perform, TreeMap.getElem?_insert_self,
          perform_eq_resolve, memory_perform, if_pos]
        exact ⟨rfl, rfl⟩
    | cancelSession other cancelled =>
      obtain rfl : other = id := by simpa [isInScene] using hscene
      simp only [act, setSessionCancelled, beats, TreeMap.getElem?_modify_self, hsession, if_pos]
      exact ⟨rfl, rfl⟩
    | connect | inject | receive | write | hangUp => exact absurd rfl hpeer
    | _ => contradiction

theorem scene_after (h : w.Sound) (ht : w.Tidy) (hsession : w.sessions[id]? = some session) {actions : List Action}
    (hscene : ∀ action ∈ actions, isInScene id action) :
    let scene := Scene.after ⟨session, w.memory, w.now⟩ (w.observe (beats id) actions)
    (w.after actions).sessions[id]? = some scene.session ∧ (w.after actions).memory = scene.memory := by
  induction actions generalizing w session with
  | nil => exact ⟨hsession, rfl⟩
  | cons action actions ih =>
    obtain ⟨hstands, hmemory⟩ := scene_act h hsession (hscene action List.mem_cons_self)
    obtain ⟨h', ht'⟩ := act_sound h ht action
    have hrest := ih h' ht' hstands fun other hmem => hscene other (List.mem_cons_of_mem action hmem)
    have hnow : (w.act action).now =
        (Scene.after ⟨session, w.memory, w.now⟩ (w.beats id action)).now := by
      rw [now_act h ht, Scene.now_after]
    rw [hmemory, hnow] at hrest
    simp only [observe, Scene.after, List.foldl_append] at hrest ⊢
    exact hrest

end World

end RemoteSlots
