import RemoteSlots.Proofs.Initiation.Accounts
import RemoteSlots.Proofs.Initiation.Milestone
import RemoteSlots.Proofs.World.Landing

/-!
This module follows an initiation that goes well: what the connection, the message and the words of the storage
are at the milestone that it has passed, and that nobody else can change any of it but by accepted writes of the
peer.
-/

namespace RemoteSlots

open Std

def Loopback.inbox (net : Loopback) (k : ConnectionId) : List (List UInt8) :=
  match net.links[k]? with
  | none => []
  | some link => link.inbox

theorem Loopback.inbox_eq {net net' : Loopback}
    (h : ∀ k : ConnectionId, net'.links[k]? = net.links[k]?) (k : ConnectionId) :
    net'.inbox k = net.inbox k := by
  unfold inbox
  rw [h]

theorem Loopback.inbox_eq_of_map {net net' : Loopback} {id : ConnectionId} {f : Link → Link}
    (h : ∀ k : ConnectionId, net'.links[k]? = if id = k then net.links[k]?.map f else net.links[k]?)
    (hf : ∀ link, net.links[id]? = some link → (f link).inbox = link.inbox) (k : ConnectionId) :
    net'.inbox k = net.inbox k := by
  unfold inbox
  rw [h]
  by_cases heq : id = k
  · rw [if_pos heq]
    rcases hlink : net.links[k]? with _ | link
    · rfl
    · exact hf link (heq ▸ hlink)
  · rw [if_neg heq]

structure Link.Offers (link link' : Link) : Prop where
  serverClosed : link'.serverClosed = link.serverClosed
  regions : link'.regions = link.regions
  completions : (∀ c ∈ link.completions, c.status ≠ .success) → ∀ c ∈ link'.completions, c.status ≠ .success

theorem Link.offers_of_eq {net net' : Loopback} (h : ∀ k : ConnectionId, net'.links[k]? = net.links[k]?)
    (k : ConnectionId) (link : Link) (hlink : net.links[k]? = some link) :
    ∃ link', net'.links[k]? = some link' ∧ link.Offers link' :=
  ⟨link, (h k).trans hlink, rfl, rfl, fun hnone => hnone⟩

namespace World

def delivered (id : CallId) (k : ConnectionId) (w : World) (action : Action) : List (List UInt8) :=
  match action with
  | .step (.call other) _ => if other = id then ((w.act action).net.inbox k).drop (w.net.inbox k).length else []
  | _ => []

def Keeps (w : World) (actions : List Action) (k : ConnectionId) (b : BlockId)
    (expected : Nat → UInt32) : Prop :=
  ∀ i, lastPut (w.observe (landed k) actions) i = none → (w.after actions).memory.word b i = expected i

def Follows (w : World) (actions : List Action) (k : ConnectionId) (b : BlockId) (P : Nat → Prop) : Prop :=
  ∀ i, P i → (w.after actions).memory.word b i =
    (lastPut (w.observe (landed k) actions) i).getD (w.memory.word b i)

variable {w : World} {id : CallId} {k : ConnectionId} {b : BlockId} {actions : List Action} {action : Action}

theorem delivered_eq_nil (hmove : ¬action.IsMoveOf id) : w.delivered id k action = [] := by
  unfold delivered
  split
  · next other expired =>
    rw [if_neg]
    rintro rfl
    exact hmove ⟨expired, rfl⟩
  · rfl

theorem Keeps.concat {expected expected' : Nat → UInt32} (h : w.Keeps actions k b expected)
    (hword : ∀ i, lastPut ((w.after actions).landed k action) i = none →
      (w.after actions).memory.word b i = expected i →
      ((w.after actions).act action).memory.word b i = expected' i) :
    w.Keeps (actions ++ [action]) k b expected' := by
  intro i hnone
  rw [observe_concat, lastPut_append, Option.or_eq_none_iff] at hnone
  rw [after_concat]
  exact hword i hnone.1 (h i hnone.2)

theorem Follows.nil (w : World) (k : ConnectionId) (b : BlockId) (P : Nat → Prop) : w.Follows [] k b P :=
  fun _ _ => rfl

theorem Follows.concat {P : Nat → Prop} (h : w.Follows actions k b P)
    (hword : ∀ i, P i → ((w.after actions).act action).memory.word b i =
      (lastPut ((w.after actions).landed k action) i).getD ((w.after actions).memory.word b i)) :
    w.Follows (actions ++ [action]) k b P := by
  intro i hi
  rw [after_concat, observe_concat, lastPut_append, hword i hi, h i hi]
  cases lastPut ((w.after actions).landed k action) i <;> rfl

structure HasPut (w : World) (id : CallId) (s : StoreId) (k : ConnectionId) (region : Region)
    (stage : Binding → Endpoint → Stage) (put : List UInt32) (front rest : List Action) : Prop where
  puts : ∃ before expired binding endpoint, front = before ++ [.step (.call id) expired] ∧
    (w.after before).calls[id]? = some ⟨s, .initiate (.run (stage binding endpoint))⟩
  stored : ∀ i < 4, (w.after front).memory.word region.block i = put[i]?.getD 0
  words : (w.after front).Follows rest k region.block (· < 4)

abbrev HasAnnounced (w : World) (id : CallId) (s : StoreId) (k : ConnectionId) (region : Region) :
    List Action → List Action → Prop :=
  w.HasPut id s k region (.announce · · region) (Stage.metadata region).toWords

abbrev HasWiped (w : World) (id : CallId) (s : StoreId) (k : ConnectionId) (region : Region) :
    List Action → List Action → Prop :=
  w.HasPut id s k region (.wipe · · region (.ok ())) (List.replicate 4 0)

structure HasSent (w : World) (id : CallId) (s : StoreId) (k : ConnectionId) (region : Region)
    (message : List UInt8) (front rest : List Action) : Prop where
  sends : ∃ early late expired, front = early ++ late ++ [.step (.call id) expired] ∧
    (w.after (early ++ late)).delivered id k (.step (.call id) expired) = [message] ∧
    (w.after (early ++ late)).memory.Backs region.toExtent ∧
    message = bytesOfWords ((w.after (early ++ late)).memory.load region.block 0 4) ∧
    w.HasAnnounced id s k region early late
  room : Metadata.wireLength ≤ region.length
  delivered : w.observe (delivered id k) (front ++ rest) = [message]
  words : (w.after front).Follows rest k region.block (4 ≤ ·)

def HasCaptured (w : World) (id : CallId) (s : StoreId) (endpoint : Endpoint) (baseline : Psn)
    (actions : List Action) : Prop :=
  ∃ before expired rest binding region link, actions = before ++ .step (.call id) expired :: rest ∧
    (w.after before).calls[id]? = some ⟨s, .initiate (.run (.capture binding endpoint region))⟩ ∧
    (w.after before).net.links[endpoint.handle]? = some link ∧ baseline = link.psn

variable {s : StoreId} {region : Region} {message : List UInt8} {front rest : List Action}

theorem HasCaptured.concat {endpoint : Endpoint} {baseline : Psn} {actions : List Action}
    (h : w.HasCaptured id s endpoint baseline actions) (action : Action) :
    w.HasCaptured id s endpoint baseline (actions ++ [action]) := by
  obtain ⟨before, expired, rest, binding, region, link, rfl, hspec⟩ := h
  refine ⟨before, expired, rest ++ [action], binding, region, link, ?_, hspec⟩
  rw [List.append_assoc, List.cons_append]

theorem HasPut.concat {stage : Binding → Endpoint → Stage} {put : List UInt32}
    (h : w.HasPut id s k region stage put front rest)
    (hword : ∀ i < 4, ((w.after (front ++ rest)).act action).memory.word region.block i =
      (lastPut ((w.after (front ++ rest)).landed k action) i).getD
        ((w.after (front ++ rest)).memory.word region.block i)) :
    w.HasPut id s k region stage put front (rest ++ [action]) where
  puts := h.puts
  stored := h.stored
  words := by
    rw [after_append] at hword
    exact h.words.concat hword

theorem HasPut.of_move {actions : List Action} {stage : Binding → Endpoint → Stage} {put : List UInt32}
    {binding : Binding} {endpoint : Endpoint}
    (hcall : (w.after actions).calls[id]? = some ⟨s, .initiate (.run (stage binding endpoint))⟩)
    {expired : Bool} (hword : ∀ i < 4, ((w.after actions).act (.step (.call id) expired)).memory.word
      region.block i = put[i]?.getD 0) :
    w.HasPut id s k region stage put (actions ++ [.step (.call id) expired]) [] where
  puts := ⟨actions, expired, binding, endpoint, rfl, hcall⟩
  stored := by
    rw [after_concat]
    exact hword
  words := Follows.nil _ _ _ _

theorem HasSent.concat (h : w.HasSent id s k region message front rest)
    (hdelivered : (w.after (front ++ rest)).delivered id k action = [])
    (hword : ∀ i, 4 ≤ i → ((w.after (front ++ rest)).act action).memory.word region.block i =
      (lastPut ((w.after (front ++ rest)).landed k action) i).getD
        ((w.after (front ++ rest)).memory.word region.block i)) :
    w.HasSent id s k region message front (rest ++ [action]) where
  sends := h.sends
  room := h.room
  delivered := by rw [← List.append_assoc, observe_concat, h.delivered, hdelivered, List.append_nil]
  words := by
    rw [after_append] at hword
    exact h.words.concat hword

/--
What holds at a milestone, after the actions since the store was claimed. There is a message once one was put
into the inbox of the peer.
-/
structure Holds (w : World) (id : CallId) (s : StoreId) (setup : Store) (actions : List Action)
    (milestone : Milestone) (message : Option (List UInt8)) : Prop where
  own : ∀ j, .endpoint j ∈ w.observe (gained id) actions ↔ milestone.endpoint?.map (·.handle) = some j
  link : ∀ endpoint, milestone.endpoint? = some endpoint →
    ∃ link, (w.after actions).net.links[endpoint.handle]? = some link ∧ link.serverClosed = false ∧
      link.regions = milestone.registrations ∧
      (message = none → ∀ c ∈ link.completions, c.status ≠ .success)
  backs : ∀ extent, milestone.extent? = some extent →
    (w.after actions).memory.Backs extent ∧ extent.length = setup.bufferSize
  words : ∀ endpoint extent, milestone.endpoint? = some endpoint → milestone.extent? = some extent →
    w.Keeps actions endpoint.handle extent.block milestone.expected
  quiet : message = none → ∀ k, w.observe (delivered id k) actions = []
  announced : ∀ endpoint region, milestone = .announced endpoint region → ∃ front rest,
    actions = front ++ rest ∧ w.HasAnnounced id s endpoint.handle region front rest
  unsent : milestone.isUnsent → message = none
  acknowledged : milestone.isAcknowledged → message.isSome
  sent : ∀ m endpoint region, message = some m → milestone.endpoint? = some endpoint →
    milestone.region? = some region → ∃ front rest, actions = front ++ rest ∧
      w.HasSent id s endpoint.handle region m front rest ∧ (milestone.isWiped → ∃ toWipe last,
        rest = toWipe ++ last ∧ (w.after front).HasWiped id s endpoint.handle region toWipe last)
  captured : ∀ endpoint baseline, milestone.endpoint? = some endpoint → milestone.baseline? = some baseline →
    w.HasCaptured id s endpoint baseline actions

namespace Holds

variable {setup : Store} {stage : CallStage} {actions : List Action} {milestone : Milestone}
  {message : Option (List UInt8)}

theorem others (h : w.Holds id s setup actions milestone message) (hw : (w.after actions).Sound)
    (ht : (w.after actions).Tidy)
    (haccounts : (w.after actions).Accounts id s setup stage (w.observe (gained id) actions))
    (hmilestone : stage.milestone? = some milestone) (hmove : ¬action.IsMoveOf id) :
    w.Holds id s setup (actions ++ [action]) milestone message := by
  obtain ⟨hheld, hblock⟩ := CallStage.custody_of_milestone hmilestone
  have hlanding : ∀ endpoint extent, milestone.endpoint? = some endpoint →
      milestone.extent? = some extent →
      ((w.after actions).act action).memory.Backs extent ∧
        ∀ i, ((w.after actions).act action).memory.word extent.block i =
          (lastPut ((w.after actions).landed endpoint.handle action) i).getD
            ((w.after actions).memory.word extent.block i) := by
    intro endpoint extent hendpoint hextent
    obtain ⟨link, hlink, -, hregions, -⟩ := h.link endpoint hendpoint
    -- The one connection that the call got reaches nothing but the block of the call.
    refine landing_act hw ht haccounts.custody?_eq (hblock extent hextent) hmove (h.backs extent hextent).1 ?_ ?_
    · intro j hj
      have hown := (h.own j).mp (haccounts.custody.held _ (haccounts.mem_holdings.mp hj))
      rw [hendpoint] at hown
      injection hown with hown
      exact hown.symm
    · intro link' hlink' r hr
      rw [hlink] at hlink'
      injection hlink' with hlink'
      rw [← hlink', hregions] at hr
      exact Milestone.extent_of_mem_registrations hextent hr
  refine ⟨?_, ?_, ?_, ?_, ?_, ?_, h.unsent, h.acknowledged, ?_, ?_⟩
  · rw [observe_concat, gained_eq_nil hmove, List.append_nil]
    exact h.own
  · intro endpoint hendpoint
    obtain ⟨link, hlink, hclosed, hregions, hsuccess⟩ := h.link endpoint hendpoint
    have hlink' := links_act hw ht (haccounts.mem_holdings.mpr (hheld endpoint hendpoint)) hmove
    rw [hlink, Option.map_some] at hlink'
    rw [after_concat]
    refine ⟨_, hlink', ?_, ?_, fun hnone => Action.completions_effectOn (hsuccess hnone)⟩
    · rw [Action.serverClosed_effectOn, hclosed]
    · rw [Action.regions_effectOn, hregions]
  · intro extent hextent
    obtain ⟨endpoint, hendpoint⟩ := Option.isSome_iff_exists.mp (Milestone.endpoint?_isSome_of_extent? hextent)
    rw [after_concat]
    exact ⟨(hlanding endpoint extent hendpoint hextent).1, (h.backs extent hextent).2⟩
  · intro endpoint extent hendpoint hextent
    apply (h.words endpoint extent hendpoint hextent).concat
    intro i hnone hword
    rw [(hlanding endpoint extent hendpoint hextent).2, hnone, hword]
    rfl
  · intro hnone k
    rw [observe_concat, delivered_eq_nil hmove, h.quiet hnone]
    rfl
  · rintro endpoint region rfl
    obtain ⟨front, rest, rfl, hannounced⟩ := h.announced endpoint region rfl
    refine ⟨front, rest ++ [action], List.append_assoc .., ?_⟩
    exact hannounced.concat fun i _ => (hlanding endpoint region.toExtent rfl rfl).2 i
  · intro m endpoint region hm hendpoint hregion
    obtain ⟨front, rest, rfl, hsent, hwiped⟩ := h.sent m endpoint region hm hendpoint hregion
    have hword := (hlanding endpoint _ hendpoint (Milestone.extent?_of_region? hregion)).2
    refine ⟨front, rest ++ [action], List.append_assoc .., ?_, ?_⟩
    · exact hsent.concat (delivered_eq_nil hmove) fun i _ => hword i
    · intro hisWiped
      obtain ⟨toWipe, last, rfl, hlast⟩ := hwiped hisWiped
      refine ⟨toWipe, last ++ [action], List.append_assoc .., ?_⟩
      apply hlast.concat
      rw [← after_append]
      exact fun i _ => hword i
  · intro endpoint baseline hendpoint hbaseline
    exact (h.captured endpoint baseline hendpoint hbaseline).concat action

theorem next (h : w.Holds id s setup actions milestone message) {expired : Bool} {milestone' : Milestone}
    {w' : World} (hw' : w' = (w.after actions).act (.step (.call id) expired))
    (hinbox : ∀ k, w'.net.inbox k = (w.after actions).net.inbox k)
    (hlinks : ∀ (k : ConnectionId) (link : Link), (w.after actions).net.links[k]? = some link →
      ∃ link', w'.net.links[k]? = some link' ∧ link.Offers link')
    (hown : ∀ j, .endpoint j ∉ (w.after actions).gained id (.step (.call id) expired))
    (hendpoint : milestone'.endpoint? = milestone.endpoint?)
    (hregion : milestone'.region? = milestone.region?)
    (hannounced : ∀ endpoint region, milestone' = .announced endpoint region → ∃ front rest,
      actions ++ [.step (.call id) expired] = front ++ rest ∧
        w.HasAnnounced id s endpoint.handle region front rest)
    (hunsent : milestone'.isUnsent → milestone.isUnsent)
    (hacknowledged : milestone'.isAcknowledged → message.isSome)
    (hbacks : ∀ extent, milestone'.extent? = some extent →
      w'.memory.Backs extent ∧ extent.length = setup.bufferSize)
    (hwords : ∀ endpoint extent, milestone'.endpoint? = some endpoint → milestone'.extent? = some extent →
      w.Keeps (actions ++ [.step (.call id) expired]) endpoint.handle extent.block milestone'.expected)
    (hrest : ∀ region, milestone.region? = some region → ∀ i, 4 ≤ i →
      w'.memory.word region.block i = (w.after actions).memory.word region.block i)
    (hwiped : milestone'.isWiped → ∀ region, milestone.region? = some region →
      (milestone.isWiped ∧ ∀ i < 4, w'.memory.word region.block i =
        (w.after actions).memory.word region.block i) ∨
      ((∃ binding endpoint, (w.after actions).calls[id]? =
        some ⟨s, .initiate (.run (.wipe binding endpoint region (.ok ())))⟩) ∧
        ∀ i < 4, w'.memory.word region.block i = 0))
    (hcaptured : ∀ endpoint baseline, milestone'.endpoint? = some endpoint →
      milestone'.baseline? = some baseline → milestone.baseline? = some baseline ∨
        w.HasCaptured id s endpoint baseline (actions ++ [.step (.call id) expired])) :
    w.Holds id s setup (actions ++ [.step (.call id) expired]) milestone' message := by
  have hdelivered : ∀ k, (w.after actions).delivered id k (.step (.call id) expired) = [] := by
    intro k
    simp only [delivered, if_pos, ← hw', hinbox]
    exact List.drop_length
  have hlanded : ∀ k, (w.after actions).landed k (.step (.call id) expired) = [] := fun _ => rfl
  subst hw'
  refine ⟨?_, ?_, ?_, hwords, ?_, hannounced, fun hisUnsent => h.unsent (hunsent hisUnsent),
    hacknowledged, ?_, ?_⟩
  · intro j
    rw [observe_concat, List.mem_append, h.own j, hendpoint]
    simp [hown j]
  · intro endpoint heq
    rw [hendpoint] at heq
    obtain ⟨link, hlink, hclosed, hregions, hsuccess⟩ := h.link endpoint heq
    obtain ⟨link', hlink', hoffers⟩ := hlinks endpoint.handle link hlink
    rw [after_concat]
    refine ⟨link', hlink', hoffers.serverClosed.trans hclosed, ?_,
      fun hnone => hoffers.completions (hsuccess hnone)⟩
    rw [hoffers.regions, hregions, Milestone.registrations, Milestone.registrations, hregion]
  · intro extent hextent
    rw [after_concat]
    exact hbacks extent hextent
  · intro hnone k
    rw [observe_concat, hdelivered, h.quiet hnone]
    rfl
  · intro m endpoint region hm heq hregion'
    rw [hendpoint] at heq
    rw [hregion] at hregion'
    obtain ⟨front, rest, rfl, hsent, hback⟩ := h.sent m endpoint region hm heq hregion'
    refine ⟨front, rest ++ [.step (.call id) expired], List.append_assoc .., ?_, ?_⟩
    · apply hsent.concat (hdelivered _)
      intro i hi
      rw [hlanded]
      exact hrest region hregion' i hi
    · intro hisWiped
      rcases hwiped hisWiped region hregion' with ⟨hbefore, hsame⟩ | ⟨⟨binding, endpoint', hcall⟩, hzero⟩
      · obtain ⟨toWipe, last, rfl, hlast⟩ := hback hbefore
        refine ⟨toWipe, last ++ [.step (.call id) expired], List.append_assoc .., ?_⟩
        apply hlast.concat
        rw [← after_append]
        intro i hi
        rw [hlanded]
        exact hsame i hi
      · refine ⟨rest ++ [.step (.call id) expired], [], (List.append_nil _).symm, ?_⟩
        rw [after_append] at hcall hzero
        apply HasPut.of_move hcall
        intro i hi
        rw [hzero i hi, List.getElem?_replicate_of_lt hi]
        rfl
  · intro endpoint baseline heq hbaseline
    rcases hcaptured endpoint baseline heq hbaseline with hold | hnew
    · rw [hendpoint] at heq
      exact (h.captured endpoint baseline heq hold).concat _
    · exact hnew

theorem stay (h : w.Holds id s setup actions milestone message) {expired : Bool}
    (hlinks : ∀ k : ConnectionId, ((w.after actions).act (.step (.call id) expired)).net.links[k]? =
      (w.after actions).net.links[k]?)
    (hmemory : ((w.after actions).act (.step (.call id) expired)).memory = (w.after actions).memory)
    (hown : ∀ j, .endpoint j ∉ (w.after actions).gained id (.step (.call id) expired)) :
    w.Holds id s setup (actions ++ [.step (.call id) expired]) milestone message := by
  refine h.next rfl (Loopback.inbox_eq hlinks) (Link.offers_of_eq hlinks) hown rfl rfl ?_
    (fun hunsent => hunsent) h.acknowledged ?_ ?_ ?_ ?_ ?_
  · intro endpoint region heq
    obtain ⟨front, rest, rfl, hannounced⟩ := h.announced endpoint region heq
    refine ⟨front, rest ++ [.step (.call id) expired], List.append_assoc .., ?_⟩
    apply hannounced.concat
    rw [hmemory]
    exact fun _ _ => rfl
  · rw [hmemory]
    exact h.backs
  · intro endpoint extent hendpoint hextent
    apply (h.words endpoint extent hendpoint hextent).concat
    rw [hmemory]
    exact fun i _ hword => hword
  · rw [hmemory]
    exact fun _ _ _ _ => rfl
  · intro hisWiped region _
    rw [hmemory]
    exact .inl ⟨hisWiped, fun _ _ => rfl⟩
  · exact fun _ _ _ hbaseline => .inl hbaseline

end Holds

end World

end RemoteSlots
