/-!
This module contains the states of a transport session. A session passes through them strictly in
the order in which they are listed.
-/

namespace RemoteSlots

inductive SessionState where
  | unbound
  | listening
  | connectRequestReceived
  | accepted
  | regionRegistered
  | metadataAdvertised
  | ready
  deriving DecidableEq, Repr

namespace SessionState

def all : List SessionState :=
  [unbound, listening, connectRequestReceived, accepted, regionRegistered, metadataAdvertised, ready]

def rank : SessionState → Nat
  | unbound => 0
  | listening => 1
  | connectRequestReceived => 2
  | accepted => 3
  | regionRegistered => 4
  | metadataAdvertised => 5
  | ready => 6

theorem getElem?_all_rank (state : SessionState) : all[state.rank]? = some state := by
  cases state <;> rfl

instance : Ord SessionState := ⟨fun a b => compare a.rank b.rank⟩

instance : LE SessionState := ⟨fun a b => a.rank ≤ b.rank⟩

instance : LT SessionState := ⟨fun a b => a.rank < b.rank⟩

instance (a b : SessionState) : Decidable (a ≤ b) := inferInstanceAs (Decidable (a.rank ≤ b.rank))

instance (a b : SessionState) : Decidable (a < b) := inferInstanceAs (Decidable (a.rank < b.rank))

theorem le_iff_rank {a b : SessionState} : a ≤ b ↔ a.rank ≤ b.rank := Iff.rfl

def name : SessionState → String
  | unbound => "Unbound"
  | listening => "Listening"
  | connectRequestReceived => "ConnectRequestReceived"
  | accepted => "Accepted"
  | regionRegistered => "RegionRegistered"
  | metadataAdvertised => "MetadataAdvertised"
  | ready => "Ready"

end SessionState

end RemoteSlots
