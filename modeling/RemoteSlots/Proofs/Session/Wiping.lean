import RemoteSlots.Proofs.Session.Advertisement
import RemoteSlots.Proofs.Session.Scene

/-!
This module shows that an advertisement leaves no trace in the region, whatever the endpoint replies and whatever
lands in the region meanwhile: nothing is written but the first four words, these are zeroed after everything else,
and the session keeps its connection and its region.
-/

namespace RemoteSlots

def Beat.landsOn (memory : Memory) (b : BlockId) (i : Nat) : Beat → Bool
  | land block address words =>
    block = b && memory.indexOf b address ≤ i && i - memory.indexOf b address < words.length
  | _ => false

namespace Memory

variable {memory memory' : Memory} {b : BlockId} {i : Nat}

theorem samePlaces_beat (memory : Memory) (next : Beat) : memory.SamePlaces (memory.beat next) := by
  cases next with
  | move | cancel => apply SamePlaces.refl
  | land => apply samePlaces_storeAt

theorem samePlaces_afterLandings (memory : Memory) (beats : List Beat) :
    memory.SamePlaces (memory.afterLandings beats) := by
  induction beats generalizing memory with
  | nil => apply SamePlaces.refl
  | cons beat beats ih =>
    apply (memory.samePlaces_beat beat).trans
    apply ih

theorem landsOn_of_samePlaces (h : memory.SamePlaces memory') (next : Beat) :
    next.landsOn memory' b i = next.landsOn memory b i := by
  cases next with
  | move | cancel => rfl
  | land block address words =>
    have hindex : memory'.indexOf b address = memory.indexOf b address := by rw [indexOf, indexOf, h.base]
    rw [Beat.landsOn, Beat.landsOn, hindex]

theorem word_afterLandings {beats : List Beat} (h : ∀ beat ∈ beats, beat.landsOn memory b i = false) :
    (memory.afterLandings beats).word b i = memory.word b i := by
  induction beats generalizing memory with
  | nil => rfl
  | cons beat beats ih =>
    have hfirst := h beat List.mem_cons_self
    have hrest : ∀ other ∈ beats, other.landsOn (memory.beat beat) b i = false := by
      intro other hmem
      rw [landsOn_of_samePlaces (memory.samePlaces_beat beat)]
      exact h other (List.mem_cons_of_mem beat hmem)
    refine (ih hrest).trans ?_
    cases beat with
    | move | cancel => rfl
    | land block address words =>
      simp only [Beat.landsOn, Bool.and_eq_false_iff, decide_eq_false_iff_not] at hfirst
      simp only [Memory.beat]
      rw [word_storeAt, if_neg]
      rintro ⟨rfl, hle, hlt, -⟩
      rcases hfirst with (hne | hnle) | hnlt
      · exact hne rfl
      · exact hnle hle
      · exact hnlt hlt

end Memory

namespace Stage

theorem round_next (name : String) (config : SessionConfig) (signals : Signals) (binding : Binding)
    (endpoint : Endpoint) (region : Region) :
    Round config signals endpoint (.awaitAck binding endpoint region)
      (.rest (.registered binding endpoint region) (.error .faulted)) (.wipe binding endpoint region)
      ((awaitAck binding endpoint region).next name config signals) :=
  round_awaitCompletion

def lateMoves : Stage → Nat
  | announce .. => 4
  | send .. => 3
  | awaitAck .. => 2
  | wipe .. => 1
  | _ => 0

end Stage

namespace Scene

structure Wiped (scene : Scene) (binding : Binding) (endpoint : Endpoint) (region : Region)
    (beats front rest : List Beat) : Prop where
  split : beats = front ++ rest
  wipes : ∃ early expired answers result, front = early ++ [.move expired answers] ∧
    (scene.after early).session.stage = .wipe binding endpoint region result
  zeroed : ∀ i < 4, (scene.after front).memory.word region.block i = 0
  since : (scene.after beats).memory = (scene.after front).memory.afterLandings rest

def advertiseRequests (endpoint : Endpoint) (region : Region) (looks : Nat) : List Request :=
  .send endpoint advertiseRequest (Stage.element region) true :: List.replicate looks (.poll endpoint)

inductive Advertising (scene : Scene) (binding : Binding) (endpoint : Endpoint) (region : Region)
    (beats : List Beat) : Stage → Prop
  | announce (hasked : scene.asked beats = []) :
    Advertising scene binding endpoint region beats (.announce binding endpoint region)
  | send (hasked : scene.asked beats = []) :
    Advertising scene binding endpoint region beats (.send binding endpoint region)
  | awaitAck (looks : Nat) (hasked : scene.asked beats = advertiseRequests endpoint region looks) :
    Advertising scene binding endpoint region beats (.awaitAck binding endpoint region)
  | wipe (looks : Nat) (hasked : scene.asked beats = advertiseRequests endpoint region looks)
    (result : Except Failure Unit) :
    Advertising scene binding endpoint region beats (.wipe binding endpoint region result)
  | faulted (looks : Nat) (hasked : scene.asked beats = advertiseRequests endpoint region looks)
    (hclock : scene.session.config.ackTimeout.isReachable scene.now = false) :
    Advertising scene binding endpoint region beats (.rest (.registered binding endpoint region) (.error .faulted))
  | failed (looks : Nat) (hasked : scene.asked beats = advertiseRequests endpoint region looks)
    {front rest : List Beat} (hwiped : scene.Wiped binding endpoint region beats front rest) (failure : Failure) :
    Advertising scene binding endpoint region beats
      (.rest (.registered binding endpoint region) (.error (.failed failure)))
  | ended (looks : Nat) (hasked : scene.asked beats = advertiseRequests endpoint region looks)
    {front rest : List Beat} (hwiped : scene.Wiped binding endpoint region beats front rest) :
    Advertising scene binding endpoint region beats (.rest (.advertised binding endpoint region) (.ok ()))

variable {scene : Scene} {binding : Binding} {endpoint : Endpoint} {region : Region} {beats : List Beat}
  {stage : Stage} {cancelled : Bool}

theorem advertiseRequests_succ (endpoint : Endpoint) (region : Region) (looks : Nat) :
    advertiseRequests endpoint region looks ++ [.poll endpoint] = advertiseRequests endpoint region (looks + 1) := by
  rw [advertiseRequests, advertiseRequests, List.cons_append, List.replicate_succ']

theorem asked_concat (scene : Scene) (beats : List Beat) (last : Beat) :
    scene.asked (beats ++ [last]) = scene.asked beats ++ (scene.after beats).asked [last] :=
  scene.asked_append beats [last]

theorem asked_move (scene : Scene) (expired : Bool) (answers : Answers) :
    scene.asked [.move expired answers] = (scene.session.upcoming expired scene.now).request?.toList :=
  List.append_nil _

theorem Wiped.concat {front rest : List Beat} (h : scene.Wiped binding endpoint region beats front rest) {last : Beat}
    (hlast : (scene.after (beats ++ [last])).memory = (scene.after beats).memory.beat last) :
    scene.Wiped binding endpoint region (beats ++ [last]) front (rest ++ [last]) where
  split := by rw [h.split, List.append_assoc]
  wipes := h.wipes
  zeroed := h.zeroed
  since := by rw [hlast, h.since, Memory.afterLandings_concat]

theorem Advertising.others (h : scene.Advertising binding endpoint region beats stage) {last : Beat}
    (hmove : last.isMove = false) : scene.Advertising binding endpoint region (beats ++ [last]) stage := by
  have hasked : scene.asked (beats ++ [last]) = scene.asked beats := by
    rw [asked_concat]
    cases last with
    | move => contradiction
    | cancel | land => exact List.append_nil _
  have hmemory : (scene.after (beats ++ [last])).memory = (scene.after beats).memory.beat last := by
    rw [after_concat]
    cases last with
    | move => contradiction
    | cancel | land => rfl
  cases h with
  | announce h => exact .announce (hasked.trans h)
  | send h => exact .send (hasked.trans h)
  | awaitAck looks h => exact .awaitAck looks (hasked.trans h)
  | wipe looks h result => exact .wipe looks (hasked.trans h) result
  | faulted looks h hclock => exact .faulted looks (hasked.trans h) hclock
  | failed looks h hwiped failure => exact .failed looks (hasked.trans h) (hwiped.concat hmemory) failure
  | ended looks h hwiped => exact .ended looks (hasked.trans h) (hwiped.concat hmemory)

theorem Advertising.lateMoves_resolve (h : scene.Advertising binding endpoint region beats stage) (name : String)
    (config : SessionConfig) (cancelled expired : Bool) (answers : Answers) :
    ((stage.next name config { cancelled, expired, now := scene.now }).resolve answers).lateMoves ≤
      stage.lateMoves - expired.toNat := by
  have hle := expired.toNat_le
  cases h with
  | announce =>
    simp only [Stage.next]
    split
    · apply Nat.zero_le
    · simp only [Move.resolve, Stage.lateMoves]
      omega
  | send =>
    simp only [Stage.next, Move.resolve]
    split
    · simp only [Stage.lateMoves]
      omega
    · simp only [Stage.lateMoves]
      omega
  | awaitAck =>
    have hround := Stage.round_next name config { cancelled, expired, now := scene.now } binding endpoint region
    generalize Stage.next name config _ _ = move at hround ⊢
    cases hround with
    | fault => apply Nat.zero_le
    | cancelled _ result =>
      simp only [Move.resolve, Stage.lateMoves]
      omega
    | look _ _ resume hresume =>
      rcases hresume (answers.reply (.poll endpoint)) with ⟨result, heq⟩ | ⟨hlimit, heq⟩
      · simp only [Move.resolve, heq, Stage.lateMoves]
        omega
      · rw [Move.resolve, heq]
        obtain rfl : expired = false := (Bool.or_eq_false_iff.mp hlimit).2
        exact Nat.le_refl _
  | wipe looks hasked result =>
    rcases result with failure | ⟨⟩
    · apply Nat.zero_le
    · apply Nat.zero_le
  | faulted | failed | ended => apply Nat.zero_le

structure Keeps (scene : Scene) (binding : Binding) (endpoint : Endpoint) (region : Region) (beats : List Beat)
    (cancelled : Bool) (stage : Stage) : Prop where
  session : (scene.after beats).session = { scene.session with cancelled, stage }
  behind : (scene.memory.afterLandings beats).AgreesBehind (scene.after beats).memory region.block
  course : scene.Advertising binding endpoint region beats stage
  late : stage.lateMoves ≤ 4 - beats.countP (·.isLate)

theorem Keeps.upcoming (h : scene.Keeps binding endpoint region beats cancelled stage) (expired : Bool) :
    (scene.after beats).session.upcoming expired (scene.after beats).now =
      stage.next scene.session.name scene.session.config { cancelled, expired, now := scene.now } := by
  rw [h.session, now_after]
  rfl

theorem Keeps.after_move (h : scene.Keeps binding endpoint region beats cancelled stage) {expired : Bool}
    {answers : Answers} {move : Move Stage}
    (hmove : stage.next scene.session.name scene.session.config { cancelled, expired, now := scene.now } = move)
    (hbehind : (scene.memory.afterLandings beats).AgreesBehind (move.touch (scene.after beats).memory) region.block)
    (hcourse : scene.asked (beats ++ [.move expired answers]) = scene.asked beats ++ move.request?.toList →
      (scene.after (beats ++ [.move expired answers])).memory = move.touch (scene.after beats).memory →
      scene.Advertising binding endpoint region (beats ++ [.move expired answers]) (move.resolve answers)) :
    scene.Keeps binding endpoint region (beats ++ [.move expired answers]) cancelled (move.resolve answers) := by
  have hupcoming := (h.upcoming expired).trans hmove
  have hmemory : (scene.after (beats ++ [.move expired answers])).memory = move.touch (scene.after beats).memory := by
    rw [after_concat, ← hupcoming]
    rfl
  have hasked : scene.asked (beats ++ [.move expired answers]) = scene.asked beats ++ move.request?.toList := by
    rw [asked_concat, asked_move, hupcoming]
  have hsession : (scene.after (beats ++ [.move expired answers])).session =
      { (scene.after beats).session with stage := move.resolve answers } := by
    rw [after_concat, ← hupcoming]
    rfl
  constructor
  · rw [hsession, h.session]
  · rw [hmemory, Memory.afterLandings_concat]
    exact hbehind
  · exact hcourse hasked hmemory
  · have hlower := h.course.lateMoves_resolve scene.session.name scene.session.config cancelled expired answers
    have hbefore := h.late
    rw [hmove] at hlower
    rw [List.countP_append, List.countP_singleton, Beat.isLate]
    cases expired with
    | true =>
      simp only [Bool.toNat_true, if_true] at hlower ⊢
      omega
    | false =>
      simp only [Bool.toNat_false, Bool.false_eq_true, if_false] at hlower ⊢
      omega

theorem Keeps.wiped {result : Except Failure Unit}
    (h : scene.Keeps binding endpoint region beats cancelled (.wipe binding endpoint region result))
    (hlong : Metadata.wireLength ≤ region.length) (hlength : scene.memory.length region.block = region.length)
    {expired : Bool} {answers : Answers}
    (hmemory : (scene.after (beats ++ [.move expired answers])).memory =
      (scene.after beats).memory.store region.block 0 [0, 0, 0, 0]) :
    scene.Wiped binding endpoint region (beats ++ [.move expired answers]) (beats ++ [.move expired answers]) [] where
  split := (List.append_nil _).symm
  wipes := by
    refine ⟨beats, expired, answers, result, rfl, ?_⟩
    rw [h.session]
  zeroed := by
    intro i hi
    have hroom : 16 ≤ (scene.after beats).memory.length region.block := by
      rw [h.behind.places.length, (scene.memory.samePlaces_afterLandings beats).length, hlength]
      exact hlong
    rw [hmemory, Memory.word_store_front hroom rfl, if_pos hi]
    rcases i with _ | _ | _ | _ | i
    · rfl
    · rfl
    · rfl
    · rfl
    · omega
  since := rfl

theorem Keeps.move (h : scene.Keeps binding endpoint region beats cancelled stage)
    (hlong : Metadata.wireLength ≤ region.length) (hlength : scene.memory.length region.block = region.length)
    (expired : Bool) (answers : Answers) :
    ∃ stage', scene.Keeps binding endpoint region (beats ++ [.move expired answers]) cancelled stage' := by
  cases h.course with
  | announce hasked =>
    have hnext : Stage.next scene.session.name scene.session.config { cancelled, expired, now := scene.now }
        (.announce binding endpoint region) =
          .write region.block 0 (Stage.metadata region).toWords (.send binding endpoint region) :=
      if_neg (Nat.not_lt.mpr hlong)
    refine ⟨_, h.after_move hnext ?_ ?_⟩
    · apply h.behind.store_front
      apply Nat.le_of_eq
      apply Metadata.length_toWords
    · intro hasked' _
      apply Advertising.send
      rw [hasked', hasked]
      rfl
  | send hasked =>
    refine ⟨_, h.after_move rfl h.behind ?_⟩
    intro hasked' _
    rw [hasked, List.nil_append] at hasked'
    simp only [Stage.next, Move.resolve]
    split
    · exact .awaitAck 0 hasked'
    · exact .wipe 0 hasked' _
  | awaitAck looks hasked =>
    have hround := Stage.round_next scene.session.name scene.session.config { cancelled, expired, now := scene.now }
      binding endpoint region
    generalize hnext : Stage.next _ _ _ _ = next at hround
    refine ⟨_, h.after_move hnext ?_ ?_⟩
    · cases hround with
      | fault | cancelled | look => exact h.behind
    · intro hasked' _
      rw [hasked] at hasked'
      cases hround with
      | fault hclock => exact .faulted looks (hasked'.trans (List.append_nil _)) hclock
      | cancelled _ result => exact .wipe looks (hasked'.trans (List.append_nil _)) result
      | look _ _ resume hresume =>
        have hlooks := hasked'.trans (advertiseRequests_succ endpoint region looks)
        rcases hresume (answers.reply (.poll endpoint)) with ⟨result, heq⟩ | ⟨-, heq⟩
        · simp only [Move.resolve, heq]
          exact .wipe _ hlooks result
        · simp only [Move.resolve, heq]
          exact .awaitAck _ hlooks
  | wipe looks hasked result =>
    refine ⟨_, h.after_move rfl (h.behind.store_front (Nat.le_refl 4)) ?_⟩
    intro hasked' hmemory
    have hsame := (hasked'.trans (List.append_nil _)).trans hasked
    cases result with
    | ok _ => exact .ended looks hsame (h.wiped hlong hlength hmemory)
    | error failure => exact .failed looks hsame (h.wiped hlong hlength hmemory) failure
  | faulted looks hasked hclock =>
    refine ⟨_, h.after_move rfl h.behind ?_⟩
    intro hasked' _
    exact .faulted looks ((hasked'.trans (List.append_nil _)).trans hasked) hclock
  | failed looks hasked hwiped failure =>
    refine ⟨_, h.after_move rfl h.behind ?_⟩
    intro hasked' hmemory
    exact .failed looks ((hasked'.trans (List.append_nil _)).trans hasked) (hwiped.concat hmemory) failure
  | ended looks hasked hwiped =>
    refine ⟨_, h.after_move rfl h.behind ?_⟩
    intro hasked' hmemory
    exact .ended looks ((hasked'.trans (List.append_nil _)).trans hasked) (hwiped.concat hmemory)

theorem Keeps.others (h : scene.Keeps binding endpoint region beats cancelled stage) {last : Beat}
    (hmove : last.isMove = false) :
    ∃ cancelled', scene.Keeps binding endpoint region (beats ++ [last]) cancelled' stage := by
  have hcourse := h.course.others hmove
  have hbehind := h.behind.beat last
  rw [← Memory.afterLandings_concat] at hbehind
  have hlate : stage.lateMoves ≤ 4 - (beats ++ [last]).countP (·.isLate) := by
    rw [List.countP_append, List.countP_singleton]
    cases last with
    | move => contradiction
    | cancel | land => exact h.late
  cases last with
  | move => contradiction
  | cancel cancelled' =>
    refine ⟨cancelled', ?_, ?_, hcourse, hlate⟩
    · rw [after_concat]
      simp only [beat, Session.turn, h.session]
    · rw [after_concat]
      exact hbehind
  | land block address words =>
    refine ⟨cancelled, ?_, ?_, hcourse, hlate⟩
    · rw [after_concat]
      exact h.session
    · rw [after_concat]
      exact hbehind

theorem keeps_after (hstage : scene.session.stage = .announce binding endpoint region)
    (hlong : Metadata.wireLength ≤ region.length) (hlength : scene.memory.length region.block = region.length)
    (beats : List Beat) : ∃ cancelled stage, scene.Keeps binding endpoint region beats cancelled stage := by
  induction beats using List.reverseRecOn with
  | nil =>
    refine ⟨scene.session.cancelled, scene.session.stage, rfl, .refl .., ?_, ?_⟩
    · rw [hstage]
      exact .announce rfl
    · rw [hstage]
      exact Nat.le_refl 4
  | append_singleton beats last ih =>
    obtain ⟨cancelled, stage, hkeeps⟩ := ih
    by_cases hmove : last.isMove
    · cases last with
      | move expired answers =>
        obtain ⟨stage', hkeeps'⟩ := hkeeps.move hlong hlength expired answers
        exact ⟨cancelled, stage', hkeeps'⟩
      | cancel | land => contradiction
    · obtain ⟨cancelled', hkeeps'⟩ := hkeeps.others (Bool.eq_false_iff.mpr hmove)
      exact ⟨cancelled', stage, hkeeps'⟩

structure Refuses (scene : Scene) (binding : Binding) (endpoint : Endpoint) (region : Region) (beats : List Beat) :
    Prop where
  untouched : (scene.after beats).memory = scene.memory.afterLandings beats
  silent : scene.asked beats = []
  session : ∃ cancelled, (scene.after beats).session = { scene.session with
    cancelled
    stage :=
      if beats.any (·.isMove) then
        .rest (.registered binding endpoint region)
          (.error (.failed (.config (.regionTooSmall region.length Metadata.wireLength))))
      else .announce binding endpoint region }

theorem refuses_after (hstage : scene.session.stage = .announce binding endpoint region)
    (hshort : region.length < Metadata.wireLength) (beats : List Beat) :
    scene.Refuses binding endpoint region beats := by
  induction beats using List.reverseRecOn with
  | nil =>
    refine ⟨rfl, rfl, scene.session.cancelled, ?_⟩
    rw [List.any_nil, if_neg Bool.false_ne_true, ← hstage]
    rfl
  | append_singleton beats last ih =>
    obtain ⟨huntouched, hsilent, cancelled, hsession⟩ := ih
    have hlanded : (scene.after beats).memory.beat last = scene.memory.afterLandings (beats ++ [last]) := by
      rw [huntouched, Memory.afterLandings_concat]
    have hany : (beats ++ [last]).any (·.isMove) = (beats.any (·.isMove) || last.isMove) := by
      rw [List.any_append, List.any_cons, List.any_nil, Bool.or_false]
    cases last with
    | move expired answers =>
      -- The first move refuses the call, and the later ones do nothing.
      have hupcoming : (scene.after beats).session.upcoming expired (scene.after beats).now =
          .pass (.rest (.registered binding endpoint region)
            (.error (.failed (.config (.regionTooSmall region.length Metadata.wireLength))))) := by
        rw [hsession]
        by_cases hmoved : beats.any (·.isMove)
        · rw [if_pos hmoved]
          rfl
        · rw [if_neg hmoved]
          exact if_pos hshort
      have hsession' : (scene.after (beats ++ [.move expired answers])).session =
          { (scene.after beats).session with
            stage := ((scene.after beats).session.upcoming expired (scene.after beats).now).resolve answers } := by
        rw [after_concat]
        rfl
      refine ⟨?_, ?_, cancelled, ?_⟩
      · rw [after_concat, ← hlanded]
        simp only [beat, hupcoming]
        rfl
      · rw [asked_concat, asked_move, hsilent, hupcoming]
        rfl
      · rw [hsession', hupcoming, hsession, hany]
        simp only [Move.resolve, Beat.isMove, Bool.or_true, if_true]
    | cancel cancelled' =>
      refine ⟨?_, ?_, cancelled', ?_⟩
      · rw [after_concat]
        exact hlanded
      · rw [asked_concat, hsilent]
        rfl
      · rw [after_concat, hany.trans (Bool.or_false _)]
        simp only [beat, Session.turn, hsession]
    | land block address words =>
      refine ⟨?_, ?_, cancelled, ?_⟩
      · rw [after_concat]
        exact hlanded
      · rw [asked_concat, hsilent]
        rfl
      · rw [after_concat, hany.trans (Bool.or_false _)]
        simp only [beat, hsession]

/--
Whether an advertisement wrote nothing that is still there, and holds on to what it needs.
-/
structure LeavesNoTrace (scene : Scene) (binding : Binding) (endpoint : Endpoint) (region : Region)
    (beats : List Beat) : Prop where
  -- Behind the front of the region memory is what landed there.
  behind : (scene.memory.afterLandings beats).AgreesBehind (scene.after beats).memory region.block
  -- When the call has returned, the front was zeroed, and nothing but what landed there since is in it.
  wiped : ∀ outcome : Except Failure Unit,
    (scene.after beats).session.stage.result? = some (outcome.mapError .failed) →
      ∃ front rest, scene.Wiped binding endpoint region beats front rest ∧
        ∀ i < 4, (∀ beat ∈ rest, beat.landsOn scene.memory region.block i = false) →
          (scene.after beats).memory.word region.block i = 0
  -- The call breaks off only if the clock cannot tell its time limit.
  faulted : (scene.after beats).session.stage.result? = some (.error .faulted) →
    scene.session.config.ackTimeout.isReachable scene.now = false
  session : ∃ cancelled stage, (scene.after beats).session = { scene.session with cancelled, stage }
  advertised : (scene.after beats).session.stage.result? = some (.ok ()) →
    (scene.after beats).session.phase = .advertised binding endpoint region
  registered : (scene.after beats).session.stage.result? ≠ some (.ok ()) →
    (scene.after beats).session.phase = .registered binding endpoint region
  requests : scene.asked beats = [] ∨ ∃ looks, scene.asked beats = advertiseRequests endpoint region looks
  -- Four moves that come too late are enough.
  ends : 4 ≤ beats.countP (·.isLate) → (scene.after beats).session.stage.result?.isSome

theorem Keeps.samePlaces (h : scene.Keeps binding endpoint region beats cancelled stage) :
    scene.memory.SamePlaces (scene.after beats).memory :=
  (scene.memory.samePlaces_afterLandings beats).trans h.behind.places

theorem Keeps.word_eq_zero (h : scene.Keeps binding endpoint region beats cancelled stage) {front rest : List Beat}
    (hwiped : scene.Wiped binding endpoint region beats front rest) {i : Nat} (hi : i < 4)
    (hclear : ∀ beat ∈ rest, beat.landsOn scene.memory region.block i = false) :
    (scene.after beats).memory.word region.block i = 0 := by
  have hplaces := h.samePlaces
  rw [hwiped.since] at hplaces ⊢
  rw [Memory.word_afterLandings, hwiped.zeroed i hi]
  intro beat hmem
  rw [Memory.landsOn_of_samePlaces (hplaces.trans (Memory.samePlaces_afterLandings ..).symm)]
  exact hclear beat hmem

theorem Keeps.leavesNoTrace (h : scene.Keeps binding endpoint region beats cancelled stage) :
    scene.LeavesNoTrace binding endpoint region beats := by
  have hstage : (scene.after beats).session.stage = stage := by rw [h.session]
  have hphase : (scene.after beats).session.phase = stage.phase := by rw [Session.phase, hstage]
  have hlate := h.late
  constructor
  case behind => exact h.behind
  case session => exact ⟨cancelled, stage, h.session⟩
  case wiped =>
    intro outcome houtcome
    rw [hstage] at houtcome
    cases h.course with
    | announce | send | awaitAck | wipe => contradiction
    | faulted => cases outcome <;> cases houtcome
    | failed looks hasked hwiped | ended looks hasked hwiped =>
      refine ⟨_, _, hwiped, ?_⟩
      intro i hi hclear
      exact h.word_eq_zero hwiped hi hclear
  case faulted =>
    intro hfaulted
    rw [hstage] at hfaulted
    cases h.course with
    | announce | send | awaitAck | wipe => contradiction
    | faulted looks hasked hclock => exact hclock
    | failed | ended => cases hfaulted
  case advertised =>
    intro hended
    rw [hstage] at hended
    rw [hphase]
    cases h.course with
    | announce | send | awaitAck | wipe => contradiction
    | faulted | failed => cases hended
    | ended => rfl
  case registered =>
    intro hended
    rw [hstage] at hended
    rw [hphase]
    cases h.course with
    | announce | send | awaitAck | wipe | faulted | failed => rfl
    | ended => exact absurd rfl hended
  case requests =>
    cases h.course with
    | announce hasked | send hasked => exact .inl hasked
    | awaitAck looks hasked | wipe looks hasked | faulted looks hasked | failed looks hasked | ended looks hasked =>
      exact .inr ⟨looks, hasked⟩
  case ends =>
    intro hcount
    rw [Nat.sub_eq_zero_of_le hcount] at hlate
    rw [hstage]
    cases h.course with
    | announce | send | awaitAck | wipe => contradiction
    | faulted | failed | ended => rfl

theorem advertisement_leaves_no_trace {session : Session} {memory : Memory} {earlier : Except Halt Unit}
    (hstage : session.stage = .rest (.registered binding endpoint region) earlier)
    (hlength : memory.length region.block = region.length) (now : Duration) (beats : List Beat) :
    let scene : Scene := ⟨session.turn (.call .advertise), memory, now⟩
    (region.length < Metadata.wireLength → scene.Refuses binding endpoint region beats) ∧
      (Metadata.wireLength ≤ region.length → scene.LeavesNoTrace binding endpoint region beats) := by
  intro scene
  have hstarted : scene.session.stage = .announce binding endpoint region := by
    simp only [scene, Session.turn, hstage, Stage.result?, Session.phase, Stage.phase]
    rfl
  constructor
  · intro hshort
    exact refuses_after hstarted hshort beats
  · intro hlong
    obtain ⟨cancelled, stage, hkeeps⟩ := keeps_after hstarted hlong hlength beats
    exact hkeeps.leavesNoTrace

set_option maxRecDepth 10000 in
theorem advertisement_leaves_no_trace_cancelled :
    let region : Region := ⟨⟨0, 4096, 64⟩, ⟨4, 4⟩⟩
    let scene : Scene :=
      ⟨World.sampleSession.turn (.call .advertise), World.sampleRegistered.memory, World.sampleRegistered.now⟩
    let actions := World.sampleSteps 2 ++ [.write 2 9 4100 4 [5], .write 2 9 4120 4 [7], .cancelSession 1 true] ++
      World.sampleSteps 2 ++ [.write 2 9 4104 4 [8]]
    let started := World.sampleRegistered.act (.startSession 1 .advertise)
    let beats := started.observe (World.beats 1) actions
    World.sampleSession.stage = .rest (.registered ⟨1, 7000⟩ ⟨2, 3⟩ region) (.ok ()) ∧
      World.sampleRegistered.memory.length 0 = 64 ∧ scene.LeavesNoTrace ⟨1, 7000⟩ ⟨2, 3⟩ region beats ∧
      (started.after actions).sessions[1]? = some (scene.after beats).session ∧
      (started.after actions).memory = (scene.after beats).memory ∧
      (started.after actions).result? (.session 1) = some (.error (.failed .cancelled)) ∧
      (started.after actions).memory.load 0 0 8 = [0, 0, 8, 0, 0, 0, 7, 0] := by
  intro region scene actions started beats
  have hstage : World.sampleSession.stage = .rest (.registered ⟨1, 7000⟩ ⟨2, 3⟩ region) (.ok ()) := by rfl
  have hlength : World.sampleRegistered.memory.length region.block = region.length := by rfl
  have hlong : Metadata.wireLength ≤ region.length := by decide
  have hclean := (advertisement_leaves_no_trace hstage hlength scene.now beats).2 hlong
  obtain ⟨hw, ht⟩ := (World.reachable_sampleRegistered.act (.startSession 1 .advertise)).sound
  have hsession : started.sessions[1]? = some scene.session := by rfl
  have hscene : ∀ action ∈ actions, World.isInScene 1 action := by decide
  obtain ⟨hstands, hmemory⟩ := World.scene_after hw ht hsession hscene
  have hresult : (started.after actions).result? (.session 1) = some (.error (.failed .cancelled)) := by decide +kernel
  have hwords : (started.after actions).memory.load 0 0 8 = [0, 0, 8, 0, 0, 0, 7, 0] := by decide +kernel
  exact ⟨hstage, hlength, hclean, hstands, hmemory, hresult, hwords⟩

end Scene

end RemoteSlots
