import RemoteSlots.Proofs.World.Invitation

/-!
This module follows what channels are told about a connection: that it was requested, that it is established, and
that it is disconnected, in this order and each at most once. Only the session whose channel was asked for the
connection accepts it, and nobody does after the peer hung up.

The steps of these runs are whole calls of the fabric, so that a peer closes its side before a connection is accepted
or after it, but not meanwhile.
-/

namespace RemoteSlots

open Std

namespace World

variable {w : World} {k : ConnectionId} {c : ChannelId} {action : Action} {actions : List Action}

def enqueued (c : ChannelId) (w : World) (action : Action) : List Event :=
  ((w.act action).net.events c).drop (w.net.events c).length

def reported (k : ConnectionId) (c : ChannelId) (w : World) (action : Action) : List Event :=
  (w.enqueued c action).filter (·.connection = k)

def accepted (k : ConnectionId) (w : World) (action : Action) : List ChannelId :=
  match w.served? action with
  | some (.accept c j queues) => if j = k ∧ (w.net.accept c j queues).1.isOk then [c] else []
  | _ => []

def Closes (w : World) (k : ConnectionId) (action : Action) : Prop :=
  action = .hangUp k ∧ ∃ link, w.net.links[k]? = some link ∧ link.peerClosed = false

theorem enqueued_eq {new : List Event} (h : w.net.Queues (w.act action).net c new) :
    w.enqueued c action = new :=
  h.drop_eq

theorem reported_eq {new : List Event} (h : w.net.Queues (w.act action).net c new) :
    w.reported k c action = new.filter (·.connection = k) := by
  rw [reported, enqueued_eq h]

theorem act_connect_error {port : UInt16} {failure : Failure} (h : w.net.connect port = .error failure) :
    w.act (.connect port) = w := by
  simp only [act, World.connect, h]
  rfl

theorem queues_connect (h : w.Sound) {port : UInt16} {net : Loopback}
    (hconnect : w.net.connect port = .ok (k, net)) (c : ChannelId) :
    w.net.Queues (w.act (.connect port)).net c
      (if w.net.listeners[port]? = some { channel := c, listening := true }
        then [⟨.connectRequest, k, 0⟩] else []) := by
  obtain ⟨asked, hlistener, -, -, hevents⟩ := Loopback.connect_requests h.net hconnect
  have hnet : (w.act (.connect port)).net = net := by
    simp only [act, World.connect, hconnect]
    rfl
  rw [hnet]
  apply Loopback.Queues.put
  rw [hevents, hlistener]
  simp only [Option.some.injEq, Listener.mk.injEq, and_true, eq_comm]

theorem queues_hangUp (w : World) (peer : ConnectionId) (c : ChannelId) :
    w.net.Queues (w.act (.hangUp peer)).net c (w.net.farewell peer c) :=
  .put (Loopback.events_hangUp ..)

theorem queues_inject (w : World) (port : UInt16) (kind : EventKind) (status : Int) (c : ChannelId) :
    ∃ new, w.net.Queues (w.act (.inject port kind status)).net c new ∧ ∀ event ∈ new, event.connection = 0 := by
  rcases hinject : w.net.inject port kind status with failure | net
  · refine ⟨[], .of_channels_eq ?_, by simp⟩
    simp only [act, World.inject, hinject]
    rfl
  · obtain ⟨channel, rfl⟩ := Loopback.inject_eq_ok hinject
    have hnet : (w.act (.inject port kind status)).net = w.net.deliver channel ⟨kind, 0, status⟩ := by
      simp only [act, World.inject, hinject]
      rfl
    refine ⟨_, .put (hnet ▸ Loopback.events_deliver ..), ?_⟩
    split <;> simp

theorem queues_receive (w : World) (peer : ConnectionId) (limit : Duration) (c : ChannelId) :
    w.net.Queues (w.act (.receive peer limit)).net c [] := by
  apply Loopback.Queues.of_channels_eq
  simp only [act, World.receive, Loopback.receive]
  split
  · rfl
  · split <;> rfl

theorem queues_write (w : World) (peer : ConnectionId) (request : UInt64) (address : UInt64) (key : UInt32)
    (words : List UInt32) (c : ChannelId) :
    w.net.Queues (w.act (.write peer request address key words)).net c [] := by
  apply Loopback.Queues.of_channels_eq
  simp only [act, World.write, Loopback.write]
  split
  · rfl
  · split <;> rfl

theorem queues_act (h : w.Reachable) (action : Action) (c : ChannelId) :
    w.net.Queues (w.act action).net c (w.enqueued c action) := by
  suffices hqueues : ∃ new, w.net.Queues (w.act action).net c new by
    obtain ⟨new, hnew⟩ := hqueues
    rwa [enqueued_eq hnew]
  cases asks_act w action with
  | @one request _ hnet =>
    rw [hnet]
    by_cases haccept : ∃ d j queues, request = .accept d j queues
    · obtain ⟨d, j, queues, rfl⟩ := haccept
      exact ⟨_, Loopback.queues_accept w.net d j queues c⟩
    · exact ⟨[], Loopback.queues_serve fun d j queues heq => haccept ⟨d, j, queues, heq⟩⟩
  | @aside requests _ haside hnet =>
    rw [hnet]
    exact ⟨[], Loopback.queues_serveAll haside⟩
  | peer hpeer =>
    cases action with
    | connect port =>
      rcases hconnect : w.net.connect port with failure | ⟨peer, net⟩
      · rw [act_connect_error hconnect]
        exact ⟨[], .of_channels_eq rfl⟩
      · exact ⟨_, queues_connect h.sound.1 hconnect c⟩
    | hangUp peer => exact ⟨_, queues_hangUp w peer c⟩
    | inject port kind status =>
      obtain ⟨new, hnew, -⟩ := queues_inject w port kind status c
      exact ⟨new, hnew⟩
    | receive peer limit => exact ⟨[], queues_receive w peer limit c⟩
    | write peer request address key words => exact ⟨[], queues_write w peer request address key words c⟩
    | unmap block =>
      rw [net_act_unmap]
      exact ⟨[], .of_channels_eq rfl⟩
    | _ => contradiction

inductive Affects (w : World) (k : ConnectionId) (action : Action) : Option Standing → Option Standing → Prop
  | stays {standing : Option Standing} (reported : ∀ d, w.reported k d action = [])
    (accepted : w.accepted k action = []) (closes : ¬w.Closes k action) : Affects w k action standing standing
  | requested {port : UInt16} {w' : World} {c : ChannelId} (connects : action = .connect port)
    (connect : w.connect port = .ok (k, w'))
    (listener : w.net.listeners[port]? = some { channel := c, listening := true })
    (reported : ∀ d, w.reported k d action = if d = c then [⟨.connectRequest, k, 0⟩] else [])
    (accepted : w.accepted k action = []) (closes : ¬w.Closes k action) :
    Affects w k action none (some ⟨c, none, false⟩)
  | accepted {task : Task} {expired : Bool} {c : ChannelId} (moves : action = .step task expired)
    (held : .channel c ∈ w.holdings task.party)
    (reported : ∀ d, w.reported k d action = if d = c then [⟨.established, k, 0⟩] else [])
    (accepted : w.accepted k action = [c]) (closes : ¬w.Closes k action) :
    Affects w k action (some ⟨c, none, false⟩) (some ⟨c, some c, false⟩)
  | closed {c : ChannelId} {acceptedBy : Option ChannelId}
    (reported : ∀ d, w.reported k d action =
      if acceptedBy = some d ∧ (w.net.channels[d]?).isSome then [⟨.disconnected, k, 0⟩] else [])
    (accepted : w.accepted k action = []) (closes : w.Closes k action) :
    Affects w k action (some ⟨c, acceptedBy, false⟩) (some ⟨c, acceptedBy, true⟩)

theorem Affects.of_silent (hqueues : ∀ d, w.net.Queues (w.act action).net d [])
    (haccepted : w.accepted k action = []) (hcloses : ¬w.Closes k action)
    (hstanding : (w.act action).net.standing? k = w.net.standing? k) :
    w.Affects k action (w.net.standing? k) ((w.act action).net.standing? k) := by
  rw [hstanding]
  exact .stays (fun d => reported_eq (hqueues d)) haccepted hcloses

theorem not_closes (h : action ≠ .hangUp k) : ¬w.Closes k action := fun hcloses => h hcloses.1

theorem closes_hangUp_iff :
    w.Closes k (.hangUp k) ↔ ∃ standing, w.net.standing? k = some standing ∧ standing.closed = false := by
  simp [Closes, Loopback.standing?, Link.standing]

theorem standing_effectOn (h : action ≠ .hangUp k) (link : Link) :
    (action.effectOn k link).standing = link.standing := by
  cases action with
  | receive peer limit =>
    simp only [Action.effectOn]
    split <;> rfl
  | write peer request address key words =>
    simp only [Action.effectOn, Loopback.writeEffect]
    split
    · split
      · rfl
      · simp [Link.standing]
    · rfl
  | hangUp peer =>
    have hne : peer ≠ k := fun heq => h (heq ▸ rfl)
    simp only [Action.effectOn, if_neg hne]
  | _ => rfl

theorem standing?_peer (hpeer : action.isPeer) (hconnect : ∀ port, action ≠ .connect port)
    (hhang : action ≠ .hangUp k) : (w.act action).net.standing? k = w.net.standing? k := by
  rw [Loopback.standing?, Loopback.standing?, links_peer_of_ne w hpeer hconnect, Option.map_map]
  exact congrArg (Option.map · w.net.links[k]?) (funext (standing_effectOn hhang))

theorem affects_connect (h : w.Sound) (port : UInt16) :
    w.Affects k (.connect port) (w.net.standing? k) ((w.act (.connect port)).net.standing? k) := by
  rcases hconnect : w.net.connect port with failure | ⟨id, net⟩
  · rw [act_connect_error hconnect]
    refine .stays (fun d => ?_) rfl (not_closes (by simp))
    rw [reported, enqueued, act_connect_error hconnect, List.drop_length, List.filter_nil]
  · have hconnected : w.connect port = .ok (id, { w with net }) := by simp only [World.connect, hconnect]; rfl
    have hqueues := queues_connect h hconnect
    obtain ⟨c, hlistener, hnone, hstanding, -⟩ := Loopback.connect_requests h.net hconnect
    rw [act_connect hconnected, hstanding]
    by_cases hid : id = k
    · subst hid
      rw [if_pos rfl, hnone]
      refine .requested rfl hconnected hlistener (fun d => ?_) rfl (not_closes (by simp))
      rw [reported_eq (hqueues d), hlistener]
      by_cases hd : d = c
      · simp [hd]
      · simp [hd, Ne.symm hd]
    · rw [if_neg hid]
      refine .stays (fun d => ?_) rfl (not_closes (by simp))
      rw [reported_eq (hqueues d)]
      split <;> simp [hid]

theorem affects_hangUp (peer : ConnectionId) :
    w.Affects k (.hangUp peer) (w.net.standing? k) ((w.act (.hangUp peer)).net.standing? k) := by
  by_cases hpeer : peer = k
  · subst hpeer
    have hstands : (w.act (.hangUp peer)).net.standing? peer = _ := Loopback.standing?_hangUp w.net peer
    have hreported : ∀ d, w.reported peer d (.hangUp peer) = w.net.farewell peer d := by
      intro d
      rw [reported_eq (queues_hangUp w peer d), Loopback.farewell]
      split <;> simp
    rw [hstands]
    rcases hstanding : w.net.standing? peer with _ | ⟨c, acceptedBy, _ | _⟩
    · refine .stays (fun d => ?_) rfl ?_
      · simp [hreported, Loopback.farewell, hstanding]
      · simp [closes_hangUp_iff, hstanding]
    · refine .closed (fun d => ?_) rfl ?_
      · simp [hreported, Loopback.farewell, hstanding]
      · simp [closes_hangUp_iff, hstanding]
    -- A peer only hangs up once.
    · refine .stays (fun d => ?_) rfl ?_
      · simp [hreported, Loopback.farewell, hstanding]
      · simp [closes_hangUp_iff, hstanding]
  · rw [standing?_peer rfl (by simp) (by simpa using hpeer)]
    refine .stays (fun d => ?_) rfl (not_closes (by simpa using hpeer))
    rw [reported_eq (queues_hangUp w peer d), Loopback.farewell]
    split <;> simp [hpeer]

theorem affects_peer (h : w.Sound) (hk : k ≠ 0) (hpeer : action.isPeer) :
    w.Affects k action (w.net.standing? k) ((w.act action).net.standing? k) := by
  cases action with
  | connect port => exact affects_connect h port
  | hangUp peer => exact affects_hangUp peer
  | inject port kind status =>
    rw [standing?_peer rfl (by simp) (by simp)]
    refine .stays (fun d => ?_) rfl (not_closes (by simp))
    obtain ⟨new, hqueues, hzero⟩ := queues_inject w port kind status d
    rw [reported_eq hqueues, List.filter_eq_nil_iff]
    intro event hmem
    simp [hzero event hmem, Ne.symm hk]
  | receive peer limit =>
    exact .of_silent (queues_receive w peer limit) rfl (not_closes (by simp)) (standing?_peer rfl (by simp) (by simp))
  | write peer request address key words =>
    exact .of_silent (queues_write w peer request address key words) rfl (not_closes (by simp))
      (standing?_peer rfl (by simp) (by simp))
  | unmap block =>
    have hqueues : ∀ c, w.net.Queues (w.act (.unmap block)).net c [] := fun c => by
      rw [net_act_unmap]
      exact .of_channels_eq rfl
    exact .of_silent hqueues rfl (not_closes (by simp)) (standing?_peer rfl (by simp) (by simp))
  | _ => contradiction

theorem affects_accept (h : w.Reachable) (hk : k ≠ 0) {queues : QueueSizes}
    (hown : action ≠ .request (.accept c k queues)) (hserved : w.served? action = some (.accept c k queues))
    (hnet : (w.act action).net = (w.net.accept c k queues).2) (hok : (w.net.accept c k queues).1.isOk) :
    w.Affects k action (w.net.standing? k) ((w.act action).net.standing? k) := by
  obtain ⟨task, expired, hmove, hheld, hzero | ⟨link, hlink, hchannel⟩⟩ := accepts_of_served h hown hserved
  · exact absurd hzero hk
  · obtain ⟨asked, hbefore, halive, hafter⟩ := Loopback.standing?_accept h.sound.1.net hok
    obtain rfl : asked = c := by
      rw [Loopback.standing?, hlink, Option.map_some, Option.some.injEq] at hbefore
      rw [← hchannel]
      exact (congrArg Standing.channel hbefore).symm
    rw [hbefore, hnet, hafter]
    refine .accepted hmove hheld (fun d => ?_) ?_ (not_closes (by simp [hmove]))
    · have hqueues := Loopback.queues_accept w.net asked k queues d
      rw [← hnet] at hqueues
      rw [reported_eq hqueues]
      by_cases hd : d = asked
      · subst hd
        simp [hok, halive]
      · simp [hd, Ne.symm hd]
    · simp only [accepted, hserved, hok, and_self, if_true]

theorem affects_request (hpeer : ¬action.isPeer) {request : Request} (hserved : w.served? action = some request)
    (hnet : (w.act action).net = (w.net.serve w.memory request).2)
    (hrequest : ∀ c queues, request = .accept c k queues → (w.net.accept c k queues).1.isOk = false) :
    w.Affects k action (w.net.standing? k) ((w.act action).net.standing? k) := by
  have hcloses : ¬w.Closes k action := not_closes fun heq => hpeer (heq ▸ rfl)
  have hstanding : (w.act action).net.standing? k = w.net.standing? k := by
    rw [hnet]
    exact Loopback.standing?_serve hrequest
  by_cases haccept : ∃ c j queues, request = .accept c j queues
  · obtain ⟨c, j, queues, rfl⟩ := haccept
    have hfailed : ¬(j = k ∧ (w.net.accept c j queues).1.isOk) := by
      rintro ⟨rfl, hok⟩
      rw [hrequest c queues rfl] at hok
      contradiction
    rw [hstanding]
    refine .stays (fun d => ?_) ?_ hcloses
    · have hqueues : w.net.Queues (w.net.serve w.memory (.accept c j queues)).2 d _ :=
        Loopback.queues_accept w.net c j queues d
      rw [← hnet] at hqueues
      rw [reported_eq hqueues, List.filter_eq_nil_iff]
      intro event hmem
      split at hmem
      · next hok =>
        obtain rfl := List.mem_singleton.mp hmem
        simpa using fun heq => hfailed ⟨heq, hok.1⟩
      · contradiction
    · simp only [accepted, hserved, if_neg hfailed]
  · refine .of_silent (fun d => ?_) ?_ hcloses hstanding
    · rw [hnet]
      exact Loopback.queues_serve fun c j queues heq => haccept ⟨c, j, queues, heq⟩
    · unfold accepted
      rw [hserved]
      split
      · next c j queues heq => exact absurd ⟨c, j, queues, Option.some.inj heq⟩ haccept
      · rfl

theorem affects_act (h : w.Reachable) (hk : k ≠ 0) (hown : ∀ c queues, action ≠ .request (.accept c k queues)) :
    w.Affects k action (w.net.standing? k) ((w.act action).net.standing? k) := by
  by_cases hpeer : action.isPeer
  · exact affects_peer h.sound.1 hk hpeer
  · cases asks_act w action with
    | peer hpeer' => exact absurd hpeer' hpeer
    | @one request hserved hnet =>
      by_cases haccepts : ∃ c queues, request = .accept c k queues ∧ (w.net.accept c k queues).1.isOk
      · obtain ⟨c, queues, rfl, hok⟩ := haccepts
        exact affects_accept h hk (hown c queues) hserved hnet hok
      · refine affects_request hpeer hserved hnet fun c queues heq => ?_
        simpa using fun hok => haccepts ⟨c, queues, heq, hok⟩
    | @aside requests hserved haside hnet =>
      refine .of_silent (fun d => ?_) ?_ (not_closes fun heq => hpeer (heq ▸ rfl)) ?_
      · rw [hnet]
        exact Loopback.queues_serveAll haside
      · simp only [accepted, hserved]
      · rw [hnet]
        exact Loopback.standing?_serveAll haside

theorem Affects.established_iff {before after : Option Standing} (h : w.Affects k action before after)
    (hchannel : ∀ standing, after = some standing → standing.channel = c) :
    ⟨.established, k, 0⟩ ∈ w.reported k c action ↔ w.accepted k action ≠ [] := by
  cases h with
  | stays reported accepted => simp [reported, accepted]
  | requested _ _ _ reported accepted =>
    rw [reported, accepted]
    split <;> simp
  | accepted _ _ reported accepted =>
    obtain rfl := hchannel _ rfl
    simp [reported, accepted]
  | closed reported accepted =>
    rw [reported, accepted]
    split <;> simp

theorem Affects.disconnected_iff {before after : Option Standing} (h : w.Affects k action before after) :
    ⟨.disconnected, k, 0⟩ ∈ w.reported k c action ↔
      w.Closes k action ∧ (∃ standing, before = some standing ∧ standing.acceptedBy = some c) ∧
        (w.net.channels[c]?).isSome := by
  cases h with
  | stays reported _ closes => simp [reported, closes]
  | requested _ _ _ reported _ closes =>
    rw [reported]
    split <;> simp [closes]
  | accepted _ _ reported _ closes =>
    rw [reported]
    split <;> simp [closes]
  | closed reported _ closes => simp [reported, closes]

theorem Affects.acceptor {before after : Option Standing} (h : w.Affects k action before after)
    (hchannel : ∀ standing, after = some standing → standing.channel = c) {d : ChannelId}
    (hd : d ∈ w.accepted k action) :
    d = c ∧ ∃ task expired, action = .step task expired ∧ .channel c ∈ w.holdings task.party := by
  cases h with
  | accepted moves held _ accepted =>
    obtain rfl := hchannel _ rfl
    rw [accepted, List.mem_singleton] at hd
    exact ⟨hd, _, _, moves, held⟩
  | stays _ accepted | requested _ _ _ _ accepted | closed _ accepted => simp [accepted] at hd

theorem Affects.closed_of_closes {before after : Option Standing} (h : w.Affects k action before after)
    (hcloses : w.Closes k action) :
    ∃ standing, before = some standing ∧ after = some { standing with closed := true } := by
  cases h with
  | closed => exact ⟨_, rfl, rfl⟩
  | stays _ _ closes | requested _ _ _ _ _ closes | accepted _ _ _ _ closes => exact absurd hcloses closes

def IsRequested (w : World) (k : ConnectionId) (actions : List Action) (c : ChannelId) : Prop :=
  ∃ before port after w', actions = before ++ .connect port :: after ∧
    (w.after before).net.listeners[port]? = some { channel := c, listening := true } ∧
      (w.after before).connect port = .ok (k, w') ∧
        (w.after before).reported k c (.connect port) = [⟨.connectRequest, k, 0⟩]

theorem IsRequested.concat (h : w.IsRequested k actions c) (action : Action) :
    w.IsRequested k (actions ++ [action]) c := by
  obtain ⟨before, port, after, w', rfl, hconnect⟩ := h
  exact ⟨before, port, after ++ [action], w', by simp, hconnect⟩

inductive Tells (w : World) (k : ConnectionId) (actions : List Action) : Option Standing → Prop
  | absent (reported : ∀ d, w.observe (reported k d) actions = []) (accepted : w.observe (accepted k) actions = []) :
    Tells w k actions none
  | waiting {c : ChannelId} {closed : Bool} (requested : w.IsRequested k actions c)
    (reported : ∀ d, w.observe (reported k d) actions = if d = c then [⟨.connectRequest, k, 0⟩] else [])
    (accepted : w.observe (accepted k) actions = []) : Tells w k actions (some ⟨c, none, closed⟩)
  | accepted {c : ChannelId} {closed : Bool} {farewell : List Event} (requested : w.IsRequested k actions c)
    (ends : farewell = [] ∨ closed = true ∧ farewell = [⟨.disconnected, k, 0⟩])
    (reported : ∀ d, w.observe (reported k d) actions =
      if d = c then ⟨.connectRequest, k, 0⟩ :: ⟨.established, k, 0⟩ :: farewell else [])
    (accepted : w.observe (accepted k) actions = [c]) : Tells w k actions (some ⟨c, some c, closed⟩)

theorem Tells.concat {before after : Option Standing} (h : w.Tells k actions before)
    (haffects : (w.after actions).Affects k action before after) : w.Tells k (actions ++ [action]) after := by
  cases haffects with
  | stays hreported haccepted _ =>
    cases h with
    | absent reported accepted =>
      refine .absent (fun d => ?_) ?_ <;> simp [observe_concat, hreported, haccepted, reported, accepted]
    | waiting requested reported accepted =>
      refine .waiting (requested.concat action) (fun d => ?_) ?_ <;>
        simp [observe_concat, hreported, haccepted, reported, accepted]
    | accepted requested ends reported accepted =>
      refine .accepted (requested.concat action) ends (fun d => ?_) ?_ <;>
        simp [observe_concat, hreported, haccepted, reported, accepted]
  | @requested port w' c connects connect listener hreported haccepted =>
    subst connects
    cases h with
    | absent reported accepted =>
      refine .waiting ⟨actions, port, [], w', rfl, listener, connect, ?_⟩ (fun d => ?_) ?_
      · rw [hreported, if_pos rfl]
      · rw [observe_concat, reported, hreported, List.nil_append]
      · rw [observe_concat, accepted, haccepted, List.nil_append]
  | accepted _ _ hreported haccepted =>
    cases h with
    | waiting requested reported accepted =>
      refine .accepted (requested.concat action) (.inl rfl) (fun d => ?_) ?_
      · rw [observe_concat, reported, hreported]
        split <;> rfl
      · rw [observe_concat, accepted, haccepted, List.nil_append]
  | @closed c acceptedBy hreported haccepted =>
    cases h with
    | waiting requested reported accepted =>
      refine .waiting (requested.concat action) (fun d => ?_) ?_ <;>
        simp [observe_concat, hreported, haccepted, reported, accepted]
    | @accepted _ _ farewell requested ends reported accepted =>
      obtain rfl : farewell = [] := by simpa using ends
      let told : List Event := if ((w.after actions).net.channels[c]?).isSome then [⟨.disconnected, k, 0⟩] else []
      refine @Tells.accepted _ _ _ c true told (requested.concat action) ?_ (fun d => ?_) ?_
      · by_cases halive : ((w.after actions).net.channels[c]?).isSome <;> simp [told, halive]
      · rw [observe_concat, reported, hreported]
        by_cases hd : d = c
        · subst hd
          simp [told]
        · simp [hd, Ne.symm hd]
      · rw [observe_concat, accepted, haccepted, List.append_nil]

theorem tells_after (mapper : Mapper) (now : Duration) (hk : k ≠ 0)
    (hown : ∀ c queues, Action.request (.accept c k queues) ∉ actions) :
    (initial mapper now).Tells k actions (((initial mapper now).after actions).net.standing? k) := by
  induction actions using List.reverseRecOn with
  | nil =>
    have hnone : (initial mapper now).net.standing? k = none := by
      simp [Loopback.standing?, initial, empty, Loopback.empty]
    rw [after, List.foldl_nil, hnone]
    exact .absent (fun _ => rfl) rfl
  | append_singleton actions action ih =>
    simp only [List.mem_append, List.mem_singleton, not_or] at hown
    rw [after_concat]
    refine (ih fun c queues => (hown c queues).1).concat (affects_act ⟨mapper, now, actions, rfl⟩ hk ?_)
    exact fun c queues heq => (hown c queues).2 heq.symm

theorem Reachable.standing_after (h : w.Reachable) {standing standing' : Standing}
    (hbefore : w.net.standing? k = some standing) (hafter : (w.after actions).net.standing? k = some standing') :
    standing'.channel = standing.channel ∧ (standing.closed → standing'.acceptedBy = standing.acceptedBy) := by
  obtain ⟨link, hlink, rfl⟩ := Option.map_eq_some_iff.mp hbefore
  obtain ⟨link', hlink', rfl⟩ := Option.map_eq_some_iff.mp hafter
  obtain ⟨found, hfound, hevolves⟩ := (h.evolves actions).links k link hlink
  obtain rfl := Option.some.inj (hlink'.symm.trans hfound)
  exact ⟨hevolves.channel, fun hclosed => (hevolves.hungUp hclosed).2⟩

theorem Tells.accepted_iff {standing : Option Standing} (h : w.Tells k actions standing)
    (hchannel : ∀ s, standing = some s → s.channel = c) :
    (∃ s, standing = some s ∧ s.acceptedBy = some c) ↔ w.observe (World.accepted k) actions ≠ [] := by
  cases h with
  | absent _ accepted => simp [accepted]
  | waiting _ _ accepted => simp [accepted]
  | accepted _ _ _ accepted =>
    obtain rfl := hchannel _ rfl
    simp [accepted]

theorem Tells.in_order {standing : Standing} (h : w.Tells k actions (some standing)) :
    w.IsRequested k actions standing.channel ∧
      w.observe (World.reported k standing.channel) actions <+:
        [⟨.connectRequest, k, 0⟩, ⟨.established, k, 0⟩, ⟨.disconnected, k, 0⟩] ∧
      (∀ d, d ≠ standing.channel → w.observe (World.reported k d) actions = []) ∧
      (w.observe (World.accepted k) actions).length ≤ 1 := by
  cases h with
  | waiting requested reported accepted =>
    refine ⟨requested, ?_, fun d hd => ?_, ?_⟩
    · rw [reported, if_pos rfl]
      exact ⟨_, rfl⟩
    · rw [reported, if_neg hd]
    · simp [accepted]
  | accepted requested ends reported accepted =>
    refine ⟨requested, ?_, fun d hd => ?_, ?_⟩
    · rw [reported, if_pos rfl]
      obtain rfl | ⟨-, rfl⟩ := ends <;> exact ⟨_, rfl⟩
    · rw [reported, if_neg hd]
    · simp [accepted]

theorem Tells.not_accepted {standing : Standing} (h : w.Tells k actions (some standing)) :
    w.observe (World.accepted k) actions = [] ↔ standing.acceptedBy = none := by
  cases h with
  | waiting _ _ accepted => simp [accepted]
  | accepted _ _ _ accepted => simp [accepted]

/--
The discipline of the events about a connection in a run, if the connection was requested from channel `c`.
-/
structure EventDiscipline (w : World) (k : ConnectionId) (c : ChannelId) (actions : List Action) : Prop where
  -- Events are put at the end of a queue, and nothing else happens to it but that some are taken from its front.
  queued : ∀ before action after, actions = before ++ action :: after → ∀ d,
    (w.after before).net.Queues (w.after (before ++ [action])).net d ((w.after before).enqueued d action)
  requested : w.IsRequested k actions c
  -- The channel is told these things in this order, each at most once.
  ordered : w.observe (reported k c) actions <+:
    [⟨.connectRequest, k, 0⟩, ⟨.established, k, 0⟩, ⟨.disconnected, k, 0⟩]
  -- No other channel is told anything.
  elsewhere : ∀ d, d ≠ c → w.observe (reported k d) actions = []
  once : (w.observe (accepted k) actions).length ≤ 1
  -- Only an operation that holds the channel accepts the connection, and it accepts it there.
  acceptor : ∀ before action after, actions = before ++ action :: after →
    ∀ d ∈ (w.after before).accepted k action, d = c ∧
      ∃ task expired, action = .step task expired ∧ .channel c ∈ (w.after before).holdings task.party
  established : ∀ before action after, actions = before ++ action :: after →
    (⟨.established, k, 0⟩ ∈ (w.after before).reported k c action ↔ (w.after before).accepted k action ≠ [])
  -- The channel is told when the peer closes its side, if the connection was accepted and the channel is open.
  disconnected : ∀ before action after, actions = before ++ action :: after →
    (⟨.disconnected, k, 0⟩ ∈ (w.after before).reported k c action ↔
      (w.after before).Closes k action ∧ w.observe (accepted k) before ≠ [] ∧
        ((w.after before).net.channels[c]?).isSome)
  -- Once the peer closed its side, nobody accepts the connection.
  withdrawn : ∀ before action after, actions = before ++ action :: after → (w.after before).Closes k action →
    w.observe (accepted k) before = [] → w.observe (accepted k) actions = []

theorem connection_events_in_order {mapper : Mapper} {now : Duration} {link : Link}
    (hlink : ((initial mapper now).after actions).net.links[k]? = some link)
    (hown : ∀ c queues, Action.request (.accept c k queues) ∉ actions) :
    (initial mapper now).EventDiscipline k link.channel actions := by
  have hreach : (initial mapper now).Reachable := ⟨mapper, now, [], rfl⟩
  have hend : ((initial mapper now).after actions).net.standing? k = some link.standing := by
    rw [Loopback.standing?, hlink, Option.map_some]
  have hk : k ≠ 0 := Nat.pos_iff_ne_zero.mp ((hreach.after actions).sound.1.net.link_bounds k link hlink).1
  have hchannel : ∀ before after, actions = before ++ after → ∀ standing,
      ((initial mapper now).after before).net.standing? k = some standing → standing.channel = link.channel := by
    rintro before after rfl standing hstanding
    rw [after_append] at hend
    exact ((hreach.after before).standing_after hstanding hend).1.symm
  have htells : ∀ before after, actions = before ++ after →
      (initial mapper now).Tells k before (((initial mapper now).after before).net.standing? k) := by
    rintro before after rfl
    exact tells_after mapper now hk fun c queues hmem => hown c queues (List.mem_append_left _ hmem)
  have haffects : ∀ before action after, actions = before ++ action :: after →
      ((initial mapper now).after before).Affects k action (((initial mapper now).after before).net.standing? k)
        (((initial mapper now).after (before ++ [action])).net.standing? k) := by
    rintro before action after rfl
    rw [after_concat]
    refine affects_act (hreach.after before) hk fun c queues heq => hown c queues ?_
    simp [heq]
  have hnext : ∀ before action after, actions = before ++ action :: after →
      actions = before ++ [action] ++ after := by
    rintro before action after rfl
    simp
  have hall := htells actions [] (List.append_nil actions).symm
  rw [hend] at hall
  obtain ⟨hrequested, hordered, helsewhere, honce⟩ := hall.in_order
  refine ⟨?_, hrequested, hordered, helsewhere, honce, ?_, ?_, ?_, ?_⟩
  · intro before action after _ d
    rw [after_concat]
    exact queues_act (hreach.after before) action d
  · intro before action after hsplit d hd
    exact (haffects before action after hsplit).acceptor (hchannel _ _ (hnext before action after hsplit)) hd
  · intro before action after hsplit
    exact (haffects before action after hsplit).established_iff (hchannel _ _ (hnext before action after hsplit))
  · intro before action after hsplit
    rw [(haffects before action after hsplit).disconnected_iff,
      (htells before _ hsplit).accepted_iff (hchannel before _ hsplit)]
  · intro before action after hsplit hcloses hnone
    obtain ⟨standing, hbefore, hafter⟩ := (haffects before action after hsplit).closed_of_closes hcloses
    have hopen := htells before _ hsplit
    rw [hbefore] at hopen
    rw [hopen.not_accepted] at hnone
    -- Nobody had accepted the connection when it was closed, and so nobody has at the end.
    rw [hnext before action after hsplit, after_append] at hend
    have hkept := (hreach.after (before ++ [action])).standing_after hafter hend
    exact hall.not_accepted.mpr ((hkept.2 rfl).trans hnone)

def sampleFarewell : List Action :=
  [.createSession "session" {} .loopback, .startSession 1 (.listen 7000)] ++ sampleSteps 3 ++
    [.connect 7000, .inject 7000 .unreachable 0] ++ sampleSteps 3 ++ [.hangUp 2, .hangUp 2]

set_option maxRecDepth 10000 in
-- The injected event names no connection, and the second hanging up is not told any more.
example : (initial (.above 4096 4096) .zero).observe (reported 2 1) sampleFarewell =
    [⟨.connectRequest, 2, 0⟩, ⟨.established, 2, 0⟩, ⟨.disconnected, 2, 0⟩] := by
  decide +kernel

end World

end RemoteSlots
