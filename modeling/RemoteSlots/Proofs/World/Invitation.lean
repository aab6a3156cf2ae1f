import RemoteSlots.Proofs.Fabric.EventQueue
import RemoteSlots.Proofs.World.CompletionQueue
import RemoteSlots.Proofs.World.Succession

/-!
This module shows that a connection is only accepted by an operation that holds the channel which was asked for it:
the operation learned of the connection from an event of that channel, and nobody is asked to accept anything when
what is held is given back.
-/

namespace RemoteSlots

open Std

namespace Loopback

variable {net net' : Loopback} {c : ChannelId} {k : ConnectionId}

def Invites (net : Loopback) (c : ChannelId) (k : ConnectionId) : Prop :=
  k = 0 ∨ ∃ link, net.links[k]? = some link ∧ link.channel = c

theorem Invites.evolves (h : net.Invites c k) (hevolves : net.Evolves net') : net'.Invites c k := by
  rcases h with hzero | ⟨link, hlink, hchannel⟩
  · exact .inl hzero
  · obtain ⟨link', hlink', hev⟩ := hevolves.links k link hlink
    exact .inr ⟨link', hlink', hev.channel.trans hchannel⟩

end Loopback

theorem Session.accept_of_call {session : Session} {operation : Operation} {binding : Binding} {k : ConnectionId}
    (h : (session.turn (.call operation)).stage = .accept binding k) : session.stage = .accept binding k := by
  simp only [turn] at h
  split at h
  · next stage _ hstart =>
    subst h
    generalize session.phase = phase at hstart
    cases operation <;> cases phase <;>
      simp [Operation.start, Stage.startListen, Stage.startRegister, Stage.startAdvertise, Stage.startCapture]
        at hstart
  · exact h

namespace World

variable {w : World} {c : ChannelId} {k : ConnectionId} {binding : Binding} {queues : QueueSizes}

/--
Whether all operations that are about to accept a connection on the loopback fabric were asked for it on their own
channels.
-/
structure Invited (w : World) : Prop where
  sessions : ∀ (id : SessionId) (session : Session) (binding : Binding) (k : ConnectionId),
    w.sessions[id]? = some session → session.fabric = .loopback → session.stage = .accept binding k →
      w.net.Invites binding.channel k
  calls : ∀ (id : CallId) (call : Call) (store : Store) (binding : Binding) (k : ConnectionId),
    w.calls[id]? = some call → w.stores[call.store]? = some store → store.fabric = .loopback →
      call.stage = .initiate (.run (.accept binding k)) → w.net.Invites binding.channel k

theorem Invited.act_session (hi : w.Invited) (h : w.Sound) (ht : w.Tidy) {action : Action} {id : SessionId}
    {session' : Session} (hsession' : (w.act action).sessions[id]? = some session')
    (hfabric : session'.fabric = .loopback) (hstage : session'.stage = .accept binding k) :
    (w.act action).net.Invites binding.channel k := by
  have hkept : ∀ {session : Session}, w.sessions[id]? = some session → session.fabric = .loopback →
      session.stage = .accept binding k → (w.act action).net.Invites binding.channel k := by
    intro session hsession hloopback haccept
    exact (hi.sessions id session binding k hsession hloopback haccept).evolves (act_evolves h ht action)
  have hleaves := sessions_act h action id
  rw [hsession'] at hleaves
  generalize hbefore : w.sessions[id]? = before? at hleaves
  cases hleaves with
  | same => exact hkept hbefore hfabric hstage
  | cancel cancelled => exact hkept hbefore hfabric hstage
  | create => contradiction
  | @call session operation =>
    obtain ⟨-, -, hsame⟩ := session.turn_eq (.call operation)
    exact hkept hbefore (hsame.symm.trans hfabric) (Session.accept_of_call hstage)
  | @move session expired =>
    -- The session found the request on its own channel.
    have hloopback : session.fabric = .loopback := hfabric
    have hnext : (w.perform .loopback (session.stage.next session.name session.config
        { cancelled := session.cancelled, expired, now := w.now })).1 = .accept binding k := by
      rw [← hloopback, perform_eq_resolve]
      exact hstage
    have hleads := perform_leads w .loopback (session.stage.next session.name session.config
      { cancelled := session.cancelled, expired, now := w.now })
    rw [hnext] at hleads
    rw [Stage.awaitRequest_of_leads hleads] at hnext
    have hnet : (w.act (.step (.session id) expired)).net = (w.perform .loopback ((Stage.awaitRequest binding).next
        session.name session.config { cancelled := session.cancelled, expired, now := w.now })).2.2.net := by
      simp only [act, step, hbefore, stepSession, hloopback, Stage.awaitRequest_of_leads hleads]
    rw [hnet]
    exact channel_of_awaitRequest h.net hnext

theorem Invited.act_call (hi : w.Invited) (h : w.Sound) (ht : w.Tidy) {action : Action} {id : CallId}
    {call' : Call} {store' : Store} (hcall' : (w.act action).calls[id]? = some call')
    (hstore' : (w.act action).stores[call'.store]? = some store') (hfabric : store'.fabric = .loopback)
    (hstage : call'.stage = .initiate (.run (.accept binding k))) :
    (w.act action).net.Invites binding.channel k := by
  cases callSource_act h ht hcall' with
  | kept hcall =>
    obtain ⟨store, hstore⟩ := Option.isSome_iff_exists.mp (ht.called id call' hcall)
    have hloopback := (retains_act h ht hstore hstore').setup.fabric.symm.trans hfabric
    exact (hi.calls id call' store binding k hcall hstore hloopback hstage).evolves (act_evolves h ht action)
  | started hcheck =>
    rw [hcheck] at hstage
    contradiction
  | @moved call store expired hmove hcall hstore hstage' =>
    subst hmove hstage'
    have hloopback : store.fabric = .loopback := (retains_act h ht hstore hstore').setup.fabric.symm.trans hfabric
    dsimp only at hstage
    rw [hloopback] at hstage
    have hleads := perform_leads w .loopback
      (call.stage.next store { cancelled := store.cancelled, expired, now := w.now })
    rw [hstage] at hleads
    have hwaits := CallStage.awaitRequest_of_leads hleads
    have hnet : (w.act (.step (.call id) expired)).net = (w.perform .loopback ((Stage.awaitRequest binding).next
        store.config.name store.config.session { cancelled := store.cancelled, expired, now := w.now })).2.2.net := by
      rw [act_step hcall hstore, (stepCall_spec hcall hstore expired).net, hloopback, hwaits]
      simp only [CallStage.next, Initiation.next, perform_embed]
    rw [hnet]
    apply channel_of_awaitRequest h.net
    rw [hwaits] at hstage
    simp only [CallStage.next, Initiation.next, perform_embed] at hstage
    injection hstage with hstage
    injection hstage

theorem Reachable.invited (h : w.Reachable) : w.Invited := by
  induction w, h using Reachable.induct with
  | initial mapper now => constructor <;> simp [World.initial, empty]
  | act w action _ hw ht ih =>
    exact ⟨fun _ _ _ _ hsession hfabric hstage => ih.act_session hw ht hsession hfabric hstage,
      fun _ _ _ _ _ hcall hstore hfabric hstage => ih.act_call hw ht hcall hstore hfabric hstage⟩

theorem request_perform (w : World) (fabric : FabricId) (move : Move σ) :
    (w.perform fabric move).2.1.map (·.request) = move.request? := by
  cases move with
  | map pages length resume =>
    simp only [perform]
    split <;> rfl
  | _ => rfl

theorem accepts_of_step (h : w.Reachable) {task : Task} {expired : Bool}
    (hserved : w.served? (.step task expired) = some (.accept c k queues)) :
    .channel c ∈ w.holdings task.party ∧ w.net.Invites c k := by
  simp only [served?] at hserved
  split at hserved
  · next hfabric =>
    cases task with
    | session id =>
      rcases hsession : w.sessions[id]? with _ | session
      · simp [fabric?, hsession] at hfabric
      · have hloopback : session.fabric = .loopback := by simpa [fabric?, hsession] using hfabric
        simp only [step, hsession, stepSession, request_perform] at hserved
        obtain ⟨binding, hstage, rfl⟩ := Stage.accept_of_request hserved
        refine ⟨?_, h.invited.sessions id session binding k hsession hloopback hstage⟩
        have hcustody : w.custody? (.session id) = some (.loopback, session.stage.custody) := by
          simp only [custody?, hsession, Option.map_some, hloopback]
        apply mem_holdings_of_custody hcustody
        rw [hstage]
        exact List.mem_singleton_self _
    | call id =>
      rcases hcall : w.calls[id]? with _ | call
      · simp [fabric?, hcall] at hfabric
      · rcases hstore : w.stores[call.store]? with _ | store
        · simp [fabric?, hcall, hstore] at hfabric
        · have hloopback : store.fabric = .loopback := by simpa [fabric?, hcall, hstore] using hfabric
          have hcustody := custody?_of_call hcall hstore
          simp only [step, hcall, hstore, (stepCall_spec hcall hstore expired).exchange, request_perform] at hserved
          obtain ⟨binding, hstage, rfl⟩ := CallStage.accept_of_request (h.isRelease hcustody) hserved
          refine ⟨?_, h.invited.calls id call store binding k hcall hstore hloopback hstage⟩
          rw [hloopback] at hcustody
          apply mem_holdings_of_custody hcustody
          rw [hstage]
          exact List.mem_singleton_self _
  · contradiction

theorem accepts_of_served (h : w.Reachable) {action : Action}
    (hrequest : action ≠ .request (.accept c k queues))
    (hserved : w.served? action = some (.accept c k queues)) :
    ∃ task expired, action = .step task expired ∧ .channel c ∈ w.holdings task.party ∧ w.net.Invites c k := by
  have hlook : ∀ (fabric : FabricId) (phase : Phase), phase.look? fabric ≠ some (.accept c k queues) := by
    intro fabric phase
    cases fabric <;> cases phase <;> simp [Phase.look?]
  cases action with
  | step task expired => exact ⟨task, expired, rfl, accepts_of_step h hserved⟩
  | pollStore id =>
    simp only [served?, Option.bind_eq_some_iff] at hserved
    obtain ⟨store, -, active, -, hserved⟩ := hserved
    exact absurd hserved (hlook _ _)
  | pollSession id =>
    simp only [served?] at hserved
    split at hserved
    · obtain ⟨session, -, hserved⟩ := Option.bind_eq_some_iff.mp hserved
      exact absurd hserved (hlook _ _)
    · contradiction
  | request request =>
    simp only [served?] at hserved
    split at hserved
    · exact absurd (congrArg Action.request (Option.some.inj hserved)) hrequest
    · contradiction
  | _ => contradiction

end World

end RemoteSlots
