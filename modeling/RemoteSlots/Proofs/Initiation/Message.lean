import RemoteSlots.Proofs.Initiation.Advance
import RemoteSlots.Proofs.Memory.Housing

/-!
This module follows an initiation from the registration of the storage to its end: the metadata is put at the
front of the storage, sent from there and acknowledged, the front is zeroed, and the baseline is captured.
-/

namespace RemoteSlots

theorem Loopback.send_cases {net : Loopback} {k : ConnectionId} {link : Link} (memory : Memory)
    (request : UInt64) (element : SendElement) (hlink : net.links[k]? = some link)
    (hclosed : link.serverClosed = false) :
    ∃ f, net.send memory k request element true = .ok (net.modifyLink k f) ∧
      ((f link).inbox = link.inbox ∧ link.Offers (f link) ∨
        ∃ message, payload? memory link element = some message ∧
          (f link).inbox = link.inbox ++ [message] ∧ (f link).serverClosed = link.serverClosed ∧
          (f link).regions = link.regions) := by
  have hfails : ∀ c : Completion, c.status ≠ .success →
      (link.complete c).inbox = link.inbox ∧ link.Offers (link.complete c) := by
    intro c hc
    refine ⟨Link.inbox_complete .., Link.serverClosed_complete .., Link.regions_complete .., ?_⟩
    intro hnone other hother
    rcases Link.mem_completions_complete hother with hold | rfl
    · exact hnone other hold
    · exact hc
  have hopen : ¬link.serverClosed = true := by simp [hclosed]
  unfold send
  rw [hlink]
  dsimp only
  rw [if_neg hopen]
  refine ⟨_, rfl, ?_⟩
  rcases hpayload : payload? memory link element with _ | message
  · exact .inl (hfails _ (by simp))
  · dsimp only
    split
    · exact .inl (hfails _ (by simp))
    · exact .inr ⟨message, rfl, Link.inbox_complete .., Link.serverClosed_complete .., Link.regions_complete ..⟩

namespace World

variable {w : World} {id : CallId} {s : StoreId} {setup : Store} {actions : List Action}
  {milestone : Milestone} {message : Option (List UInt8)} {expired : Bool} {name : String}
  {config : SessionConfig} {signals : Signals} {binding : Binding} {endpoint : Endpoint} {region : Region}

namespace Holds

theorem announces (h : w.Holds id s setup actions (.registered endpoint region) message)
    (hcall : (w.after actions).calls[id]? = some ⟨s, .initiate (.run (.announce binding endpoint region))⟩)
    (hmoved : (w.after actions).Moved id expired
      ((Stage.announce binding endpoint region).next name config signals)) :
    Leads w id s setup actions expired ((w.after actions).perform .loopback
      ((Stage.announce binding endpoint region).next name config signals)).1.milestone? := by
  obtain ⟨hmovedNet, hmovedMemory, hmovedGained⟩ := hmoved
  simp only [Stage.next] at hmovedNet hmovedMemory hmovedGained ⊢
  by_cases hshort : region.length < Metadata.wireLength
  · simp only [if_pos hshort]
    exact fun _ hnone => by contradiction
  · simp only [if_neg hshort, perform, acquired] at hmovedNet hmovedMemory hmovedGained ⊢
    rintro milestone' ⟨⟩
    obtain ⟨hbacks, hlength⟩ := h.backs region.toExtent rfl
    have hlinks : ∀ k : ConnectionId, ((w.after actions).act (.step (.call id) expired)).net.links[k]? =
        (w.after actions).net.links[k]? := fun k => by rw [hmovedNet]
    have hword : ∀ i, ((w.after actions).act (.step (.call id) expired)).memory.word region.block i =
        if i < 4 then (Stage.metadata region).toWords[i]?.getD 0
        else (w.after actions).memory.word region.block i := by
      intro i
      rw [hmovedMemory]
      apply Memory.word_store_front _ rfl
      rw [hbacks.length]
      exact Nat.not_lt.mp hshort
    refine ⟨message, h.next rfl (Loopback.inbox_eq hlinks) (Link.offers_of_eq hlinks) ?_ rfl rfl
      ?_ (fun _ => rfl) (fun hnone => by contradiction) ?_ ?_ ?_
      (fun hnone => by contradiction) (fun _ _ _ hnone => by contradiction)⟩
    · rw [hmovedGained]
      exact fun _ => List.not_mem_nil
    · rintro endpoint' region' ⟨⟩
      refine ⟨actions ++ [.step (.call id) expired], [], (List.append_nil _).symm, HasPut.of_move hcall ?_⟩
      intro i hi
      rw [hword, if_pos hi]
    · rintro extent' ⟨⟩
      rw [hmovedMemory]
      exact ⟨hbacks.store .., hlength⟩
    · rintro endpoint' extent' ⟨⟩ ⟨⟩
      apply (h.words endpoint region.toExtent rfl rfl).concat
      intro i _ hold
      rw [hword]
      by_cases hi : i < 4
      · rw [if_pos hi]
        rfl
      · rw [if_neg hi, hold]
        have hnone : (Stage.metadata region).toWords[i]? = none :=
          List.getElem?_eq_none (Nat.not_lt.mp hi)
        simp [Milestone.expected, hnone]
    · rintro region' ⟨⟩ i hi
      rw [hword, if_neg (Nat.not_lt.mpr hi)]

theorem wipes (h : w.Holds id s setup actions (.acknowledged endpoint region) message)
    (hcall : (w.after actions).calls[id]? =
      some ⟨s, .initiate (.run (.wipe binding endpoint region (.ok ())))⟩)
    (hmoved : (w.after actions).Moved id expired
      ((Stage.wipe binding endpoint region (.ok ())).next name config signals)) :
    Leads w id s setup actions expired ((w.after actions).perform .loopback
      ((Stage.wipe binding endpoint region (.ok ())).next name config signals)).1.milestone? := by
  obtain ⟨hmovedNet, hmovedMemory, hmovedGained⟩ := hmoved
  simp only [Stage.next, perform, acquired] at hmovedNet hmovedMemory hmovedGained ⊢
  rintro milestone' ⟨⟩
  obtain ⟨hbacks, hlength⟩ := h.backs region.toExtent rfl
  have hlinks : ∀ k : ConnectionId, ((w.after actions).act (.step (.call id) expired)).net.links[k]? =
      (w.after actions).net.links[k]? := fun k => by rw [hmovedNet]
  obtain ⟨m, hmessage⟩ := Option.isSome_iff_exists.mp (h.acknowledged rfl)
  obtain ⟨front, rest, -, hsent, -⟩ := h.sent m endpoint region hmessage rfl rfl
  -- Whatever the peer wrote to the first four words is gone after this move.
  have hword : ∀ i, ((w.after actions).act (.step (.call id) expired)).memory.word region.block i =
      if i < 4 then 0 else (w.after actions).memory.word region.block i := by
    intro i
    have hzero : ([0, 0, 0, 0] : List UInt32) = List.replicate 4 0 := rfl
    rw [hmovedMemory, Memory.word_store_front _ rfl]
    · split
      · next hi =>
        rw [hzero, List.getElem?_replicate_of_lt hi]
        rfl
      · rfl
    · rw [hbacks.length]
      exact hsent.room
  refine ⟨message, h.next rfl (Loopback.inbox_eq hlinks) (Link.offers_of_eq hlinks) ?_ rfl rfl
    (fun _ _ hnone => by contradiction) (fun hnone => by contradiction) (fun _ => h.acknowledged rfl)
    ?_ ?_ ?_ ?_ (fun _ _ _ hnone => by contradiction)⟩
  · rw [hmovedGained]
    exact fun _ => List.not_mem_nil
  · rintro extent' ⟨⟩
    rw [hmovedMemory]
    exact ⟨hbacks.store .., hlength⟩
  · rintro endpoint' extent' ⟨⟩ ⟨⟩
    apply (h.words endpoint region.toExtent rfl rfl).concat
    intro i _ hold
    rw [hword]
    by_cases hi : i < 4
    · rw [if_pos hi]
      rfl
    · rw [if_neg hi, hold]
      have hnone : (Stage.metadata region).toWords[i]? = none :=
        List.getElem?_eq_none (Nat.not_lt.mp hi)
      simp [Milestone.expected, hnone]
  · rintro region' ⟨⟩ i hi
    rw [hword, if_neg (Nat.not_lt.mpr hi)]
  · rintro - region' ⟨⟩
    refine .inr ⟨⟨binding, endpoint, hcall⟩, fun i hi => ?_⟩
    rw [hword, if_pos hi]

theorem captures (h : w.Holds id s setup actions (.wiped endpoint region) message)
    (hcall : (w.after actions).calls[id]? = some ⟨s, .initiate (.run (.capture binding endpoint region))⟩)
    (hmoved : (w.after actions).Moved id expired
      ((Stage.capture binding endpoint region).next name config signals)) :
    Leads w id s setup actions expired ((w.after actions).perform .loopback
      ((Stage.capture binding endpoint region).next name config signals)).1.milestone? := by
  obtain ⟨hmovedNet, hmovedMemory, hmovedGained⟩ := hmoved
  obtain ⟨link, hlink, -⟩ := h.link endpoint rfl
  simp only [Stage.next, perform, serve, Loopback.serve, acquired, Loopback.receivePsn, hlink]
    at hmovedNet hmovedMemory hmovedGained ⊢
  rintro milestone' ⟨⟩
  have hlinks : ∀ k : ConnectionId, ((w.after actions).act (.step (.call id) expired)).net.links[k]? =
      (w.after actions).net.links[k]? := fun k => by rw [hmovedNet]
  refine ⟨message, h.next rfl (Loopback.inbox_eq hlinks) (Link.offers_of_eq hlinks) ?_ rfl rfl
    (fun _ _ hnone => by contradiction) (fun hnone => by contradiction) (fun _ => h.acknowledged rfl)
    ?_ ?_ ?_ ?_ ?_⟩
  · rw [hmovedGained]
    exact fun _ => List.not_mem_nil
  · rw [hmovedMemory]
    exact h.backs
  · rintro endpoint' extent' ⟨⟩ ⟨⟩
    apply (h.words endpoint region.toExtent rfl rfl).concat
    rw [hmovedMemory]
    exact fun i _ hword => hword
  · rw [hmovedMemory]
    exact fun _ _ _ _ => rfl
  · rintro - region' -
    rw [hmovedMemory]
    exact .inl ⟨rfl, fun _ _ => rfl⟩
  · rintro endpoint' baseline ⟨⟩ ⟨⟩
    exact .inr ⟨actions, expired, [], binding, region, link, rfl, hcall, hlink, Psn.ofWord_toWord _⟩

theorem payload_cases {memory : Memory} {link : Link}
    (hregions : link.regions = [⟨region.toExtent, region.keys.localKey, .full⟩])
    (hbacks : memory.Backs region.toExtent) :
    Loopback.payload? memory link (Stage.element region) = none ∨
      Metadata.wireLength ≤ region.length ∧
        Loopback.payload? memory link (Stage.element region) =
          some (bytesOfWords (memory.load region.block 0 4)) := by
  unfold Loopback.payload?
  rw [hregions]
  simp only [List.find?_singleton]
  split
  · next registration hfound =>
    split at hfound
    · next hcovers =>
      injection hfound with hfound
      subst hfound
      have hroom : Metadata.wireLength ≤ region.length := by
        simp only [Registration.covers, Bool.and_eq_true, decide_eq_true_eq] at hcovers
        exact Nat.le_of_add_le_add_left hcovers.2.1.2
      refine .inr ⟨hroom, ?_⟩
      have hlength : (Stage.element region).length = 4 * 4 := rfl
      rw [hlength, if_pos (Nat.mul_mod_right 4 4), Nat.mul_div_cancel_left 4 (by decide)]
      exact congrArg (fun words => some (bytesOfWords words)) (Memory.loadAt_front hbacks hroom)
    · contradiction
  · exact .inl rfl

theorem sends (h : w.Holds id s setup actions (.announced endpoint region) message)
    (hmoved : (w.after actions).Moved id expired
      ((Stage.send binding endpoint region).next name config signals)) :
    Leads w id s setup actions expired ((w.after actions).perform .loopback
      ((Stage.send binding endpoint region).next name config signals)).1.milestone? := by
  obtain ⟨hmovedNet, hmovedMemory, hmovedGained⟩ := hmoved
  obtain ⟨link, hlink, hclosed, hregions, hsuccess⟩ := h.link endpoint rfl
  obtain ⟨hbacks, hlength⟩ := h.backs region.toExtent rfl
  obtain ⟨f, hsend, hf⟩ := Loopback.send_cases (w.after actions).memory advertiseRequest (Stage.element region)
    hlink hclosed
  simp only [Stage.next, perform, serve, Loopback.serve, acquired, hsend, Loopback.answer]
    at hmovedNet hmovedMemory hmovedGained ⊢
  rintro milestone' ⟨⟩
  have hlinks : ∀ j : ConnectionId, ((w.after actions).act (.step (.call id) expired)).net.links[j]? =
      if endpoint.handle = j then (w.after actions).net.links[j]?.map f
      else (w.after actions).net.links[j]? := by
    intro j
    rw [hmovedNet]
    exact Loopback.getElem?_modifyLink ..
  have hwords : w.Keeps (actions ++ [.step (.call id) expired]) endpoint.handle region.block
      (Milestone.sent endpoint region).expected := by
    apply (h.words endpoint region.toExtent rfl rfl).concat
    rw [hmovedMemory]
    exact fun i _ hword => hword
  -- Without a message no completion reports success, and the call will never get past its wait.
  rcases hf with ⟨hinbox, hoffers⟩ | ⟨m, hpayload, hinbox, hclosed', hregions'⟩
  · have hoffered : ∀ (j : ConnectionId) (link : Link), (w.after actions).net.links[j]? = some link →
        ∃ link', ((w.after actions).act (.step (.call id) expired)).net.links[j]? = some link' ∧
          link.Offers link' := by
      intro j link' hlink'
      rw [hlinks, hlink']
      split
      · next heq =>
        subst heq
        rw [hlink] at hlink'
        injection hlink' with hlink'
        exact ⟨f link', rfl, hlink' ▸ hoffers⟩
      · exact ⟨link', rfl, rfl, rfl, fun hnone => hnone⟩
    have hinboxes := Loopback.inbox_eq_of_map hlinks fun link' hlink' => by
      rw [hlink] at hlink'
      injection hlink' with hlink'
      exact hlink' ▸ hinbox
    refine ⟨message, h.next rfl hinboxes hoffered ?_ rfl rfl (fun _ _ hnone => by contradiction)
      (fun hnone => by contradiction) (fun hnone => by contradiction) ?_ ?_ ?_ (fun hnone => by contradiction)
      (fun _ _ _ hnone => by contradiction)⟩
    · rw [hmovedGained]
      exact fun _ => List.not_mem_nil
    · rw [hmovedMemory]
      exact h.backs
    · rintro endpoint' extent' ⟨⟩ ⟨⟩
      exact hwords
    · rw [hmovedMemory]
      exact fun _ _ _ _ => rfl
  · rcases payload_cases hregions hbacks with hnone | ⟨hroom, hfront⟩
    · rw [hpayload] at hnone
      contradiction
    · rw [hpayload] at hfront
      injection hfront with hfront
      have hdelivered : (w.after actions).delivered id endpoint.handle (.step (.call id) expired) = [m] := by
        have hbefore : (w.after actions).net.inbox endpoint.handle = link.inbox := by
          unfold Loopback.inbox
          rw [hlink]
        have hafter : ((w.after actions).act (.step (.call id) expired)).net.inbox endpoint.handle =
            link.inbox ++ [m] := by
          unfold Loopback.inbox
          rw [hlinks, if_pos rfl, hlink, Option.map_some]
          exact hinbox
        rw [delivered, if_pos rfl, hbefore, hafter, List.drop_left]
      refine ⟨some m, ?_, ?_, ?_, ?_, fun hnone => by contradiction, fun _ _ hnone => by contradiction,
        fun hnone => by contradiction, fun _ => rfl, ?_, fun _ _ _ hnone => by contradiction⟩
      · intro j
        rw [observe_concat, List.mem_append, h.own j, hmovedGained]
        simp [Request.acquired, Milestone.endpoint?]
      · rintro endpoint' ⟨⟩
        refine ⟨f link, ?_, hclosed'.trans hclosed, hregions'.trans hregions, fun hnone => by contradiction⟩
        rw [after_concat, hlinks, if_pos rfl, hlink]
        rfl
      · rw [after_concat, hmovedMemory]
        exact h.backs
      · rintro endpoint' extent' ⟨⟩ ⟨⟩
        exact hwords
      · rintro m' endpoint' region' ⟨⟩ ⟨⟩ ⟨⟩
        refine ⟨actions ++ [.step (.call id) expired], [], (List.append_nil _).symm, ?_,
          fun hnone => by contradiction⟩
        refine ⟨?_, hroom, ?_, Follows.nil _ _ _ _⟩
        · obtain ⟨early, late, rfl, hannounced⟩ := h.announced endpoint region rfl
          exact ⟨early, late, expired, rfl, hdelivered, hbacks, hfront, hannounced⟩
        · rw [List.append_nil, observe_concat, h.quiet (h.unsent rfl), hdelivered]
          rfl

theorem acknowledge (h : w.Holds id s setup actions (.sent endpoint region) message)
    (hmessage : message.isSome) :
    w.Holds id s setup actions (.acknowledged endpoint region) message where
  own := h.own
  link := h.link
  backs := h.backs
  words := h.words
  quiet := h.quiet
  announced := fun _ _ hnone => by contradiction
  unsent := fun hnone => by contradiction
  acknowledged := fun _ => hmessage
  sent := by
    intro m endpoint' region' hm hendpoint hregion
    obtain ⟨front, rest, hactions, hsent, -⟩ := h.sent m endpoint' region' hm hendpoint hregion
    exact ⟨front, rest, hactions, hsent, fun hnone => by contradiction⟩
  captured := fun _ _ _ hnone => by contradiction

theorem polls (h : w.Holds id s setup actions (.sent endpoint region) message)
    (hmoved : (w.after actions).Moved id expired
      ((Stage.awaitAck binding endpoint region).next name config signals)) :
    Leads w id s setup actions expired ((w.after actions).perform .loopback
      ((Stage.awaitAck binding endpoint region).next name config signals)).1.milestone? := by
  obtain ⟨link, hlink, -, -, hsuccess⟩ := h.link endpoint rfl
  simp only [Stage.next] at hmoved ⊢
  rcases Stage.awaitCompletion_cases name config signals endpoint advertiseRequest
    (.awaitAck binding endpoint region) (.rest (.registered binding endpoint region) (.error .faulted))
    (.wipe binding endpoint region) with ⟨stage, heq, hstage⟩ | ⟨resume, heq, hresume⟩
  · rw [heq]
    rcases hstage with hfaulted | ⟨failure, hended⟩
    · exact fun _ hnone => by rw [perform, hfaulted] at hnone; contradiction
    · exact fun _ hnone => by rw [perform, hended] at hnone; contradiction
  · rw [heq] at hmoved ⊢
    obtain ⟨hmovedNet, hmovedMemory, hmovedGained⟩ := hmoved
    simp only [perform, serve, Loopback.serve, acquired, Loopback.poll, hlink]
      at hmovedNet hmovedMemory hmovedGained ⊢
    have hlinks : ∀ j : ConnectionId, ((w.after actions).act (.step (.call id) expired)).net.links[j]? =
        if endpoint.handle = j then (w.after actions).net.links[j]?.map fun link =>
          { link with completions := link.completions.tail }
        else (w.after actions).net.links[j]? := by
      intro j
      rw [hmovedNet]
      exact Loopback.getElem?_modifyLink ..
    have hoffers : ∀ (j : ConnectionId) (link : Link), (w.after actions).net.links[j]? = some link →
        ∃ link', ((w.after actions).act (.step (.call id) expired)).net.links[j]? = some link' ∧
          link.Offers link' := by
      intro j link hlink
      rw [hlinks, hlink]
      split
      · exact ⟨_, rfl, rfl, rfl, fun hnone c hc => hnone c (List.mem_of_mem_tail hc)⟩
      · exact ⟨link, rfl, rfl, rfl, fun hnone => hnone⟩
    have hsame : w.Holds id s setup (actions ++ [.step (.call id) expired]) (.sent endpoint region)
        message := by
      refine h.next rfl (Loopback.inbox_eq_of_map hlinks fun _ _ => rfl) hoffers ?_ rfl rfl
        (fun _ _ hnone => by contradiction) (fun hnone => by contradiction) h.acknowledged ?_ ?_ ?_
        (fun hnone => by contradiction)
        (fun _ _ _ hnone => by contradiction)
      · rw [hmovedGained]
        exact fun _ => List.not_mem_nil
      · rw [hmovedMemory]
        exact h.backs
      · rintro endpoint' extent' ⟨⟩ ⟨⟩
        apply (h.words endpoint region.toExtent rfl rfl).concat
        rw [hmovedMemory]
        exact fun i _ hword => hword
      · rw [hmovedMemory]
        exact fun _ _ _ _ => rfl
    intro milestone' hmilestone'
    rcases hresume (.ok link.completions.head?) with hwaiting | ⟨failure, hended⟩ | ⟨c, hreply, hstatus, hended⟩
    · rw [hwaiting] at hmilestone'
      injection hmilestone' with hmilestone'
      exact ⟨message, hmilestone' ▸ hsame⟩
    · rw [hended] at hmilestone'
      contradiction
    · rw [hended] at hmilestone'
      injection hmilestone' with hmilestone'
      injection hreply with hreply
      refine ⟨message, hmilestone' ▸ hsame.acknowledge ?_⟩
      -- Nothing but a message that was delivered leads to a completion that reports success.
      rcases message with _ | m
      · exact absurd hstatus (hsuccess rfl c (List.mem_of_mem_head? hreply))
      · rfl

theorem passes (h : w.Holds id s setup actions milestone message) {state : σ} {milestone? : Option Milestone}
    (hmoved : (w.after actions).Moved id expired (.pass state))
    (hsame : ∀ milestone', milestone? = some milestone' → milestone' = milestone) :
    Leads w id s setup actions expired milestone? :=
  (h.stay_of_pass hmoved).leads_of_same hsame

theorem operates (h : w.Holds id s setup actions milestone message) {stage : Stage}
    (hcall : (w.after actions).calls[id]? = some ⟨s, .initiate (.run stage)⟩)
    (hnet : (w.after actions).net.Sound) (hmilestone : stage.milestone? = some milestone)
    (hrest : stage.result? = none)
    (hmoved : (w.after actions).Moved id expired (stage.next name config signals)) :
    Leads w id s setup actions expired
      ((w.after actions).perform .loopback (stage.next name config signals)).1.milestone? := by
  cases stage with
  | openChannel port =>
    injection hmilestone with hmilestone
    subst hmilestone
    refine h.listens hmoved (fun _ => List.not_mem_nil) ?_ ?_
    · rintro k (failure | channel) <;> simp [Request.acquired]
    · rintro (failure | channel) milestone' ⟨⟩
      rfl
  | bind binding | listen binding =>
    injection hmilestone with hmilestone
    subst hmilestone
    refine h.listens hmoved (fun _ hmem => by simp [Request.handles] at hmem) ?_ ?_
    · intro k reply
      exact List.not_mem_nil
    · rintro (failure | ⟨⟩) milestone' ⟨⟩
      rfl
  | awaitRequest binding =>
    injection hmilestone with hmilestone
    subst hmilestone
    simp only [Stage.next] at hmoved ⊢
    apply h.awaits hmoved
    · rfl
    · exact fun _ => rfl
    · exact fun _ => rfl
  | accept binding k =>
    injection hmilestone with hmilestone
    subst hmilestone
    exact h.accepts hnet hmoved
  | awaitEstablished binding endpoint =>
    injection hmilestone with hmilestone
    subst hmilestone
    simp only [Stage.next] at hmoved ⊢
    apply h.awaits hmoved
    · rfl
    · exact fun _ => rfl
    · exact fun _ => rfl
  | register binding endpoint extent =>
    injection hmilestone with hmilestone
    subst hmilestone
    exact h.registers hmoved
  | announce binding endpoint region =>
    injection hmilestone with hmilestone
    subst hmilestone
    exact h.announces hcall hmoved
  | send binding endpoint region =>
    injection hmilestone with hmilestone
    subst hmilestone
    exact h.sends hmoved
  | awaitAck binding endpoint region =>
    injection hmilestone with hmilestone
    subst hmilestone
    exact h.polls hmoved
  | wipe binding endpoint region result =>
    rcases result with failure | ⟨⟩
    · contradiction
    · injection hmilestone with hmilestone
      subst hmilestone
      exact h.wipes hcall hmoved
  | capture binding endpoint region =>
    injection hmilestone with hmilestone
    subst hmilestone
    exact h.captures hcall hmoved
  | giveUp | rest => contradiction

theorem advances (h : w.Holds id s setup actions milestone message) {stage : CallStage}
    (hunder : (w.after actions).UnderWay id s setup stage) (hnet : (w.after actions).net.Sound)
    (hmilestone : stage.milestone? = some milestone)
    (hmoved : (w.after actions).Moved id expired (stage.next setup signals)) :
    Leads w id s setup actions expired
      ((w.after actions).perform .loopback (stage.next setup signals)).1.milestone? := by
  cases stage with
  | initiate initiation =>
    cases initiation with
    | run stage =>
      simp only [CallStage.next] at hmoved ⊢
      rw [perform_embed]
      rcases hrest : stage.result? with _ | result
      · rw [Initiation.next_run hrest] at hmoved ⊢
        rw [perform_embed]
        exact h.operates hunder.calls hnet hmilestone hrest hmoved.of_embed.of_embed
      · cases stage with
        | rest phase result =>
          apply h.passes hmoved.of_embed
          intro milestone' hmilestone'
          rcases result with halt | ⟨⟩
          · cases phase <;> contradiction
          · cases phase with
            | unbound | listening | requested => contradiction
            | accepted | registered | advertised | ready =>
              exact Option.some.inj (hmilestone'.symm.trans hmilestone)
        | _ => contradiction
    | allocate binding endpoint =>
      injection hmilestone with hmilestone
      subst hmilestone
      simp only [CallStage.next] at hmoved ⊢
      rw [perform_embed]
      exact h.maps hmoved.of_embed
    | clear binding endpoint extent =>
      injection hmilestone with hmilestone
      subst hmilestone
      simp only [CallStage.next] at hmoved ⊢
      rw [perform_embed]
      exact h.clears hmoved.of_embed
    | giveBack => contradiction
    | finished result =>
      rcases result with halt | active
      · contradiction
      · exact h.passes hmoved fun milestone' heq => Option.some.inj (heq.symm.trans hmilestone)
  | free result =>
    rcases result with failure | active
    · contradiction
    · exact h.passes hmoved fun milestone' heq => Option.some.inj (heq.symm.trans hmilestone)
  | publish active =>
    apply h.passes hmoved
    intro milestone' heq
    simp only [CallStage.next, perform] at heq
    rw [if_neg (by simp [Store.isReady, hunder.idle])] at heq
    contradiction
  | _ => contradiction

end Holds

end World

end RemoteSlots
