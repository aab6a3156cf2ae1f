/-!
This module contains completed work requests and the outcome of looking for one.
-/

namespace RemoteSlots

/--
How a work request ended. Statuses without a name of their own carry their code.
-/
inductive WorkStatus where
  | success
  | localLengthError
  | localProtectionError
  | flushError
  | remoteAccessError
  | remoteOperationError
  | retryExceeded
  | other (code : UInt32)
  deriving DecidableEq, Repr

def WorkStatus.name : WorkStatus → String
  | .success => "Success"
  | .localLengthError => "LocalLengthError"
  | .localProtectionError => "LocalProtectionError"
  | .flushError => "WrFlushError"
  | .remoteAccessError => "RemoteAccessError"
  | .remoteOperationError => "RemoteOperationError"
  | .retryExceeded => "RetryExceeded"
  | .other code => s!"Other({code})"

inductive Opcode where
  | send
  | remoteWrite
  deriving DecidableEq, Repr

def Opcode.name : Opcode → String
  | .send => "Send"
  | .remoteWrite => "RdmaWrite"

structure Completion where
  request : UInt64
  status : WorkStatus
  opcode : Opcode
  deriving DecidableEq, Repr

inductive Poll where
  | empty
  | success (request : UInt64)
  | failed (status : WorkStatus) (request : UInt64)
  deriving DecidableEq, Repr

namespace Poll

def ofCompletion (completion : Completion) : Poll :=
  match completion.status with
  | .success => .success completion.request
  | status => .failed status completion.request

def ofCompletion? : Option Completion → Poll
  | none => .empty
  | some completion => ofCompletion completion

def isSuccess : Poll → Bool
  | .success _ => true
  | _ => false

theorem isSuccess_ofCompletion (completion : Completion) :
    (ofCompletion completion).isSuccess ↔ completion.status = .success := by
  unfold ofCompletion
  split <;> simp_all [isSuccess]

def text : Poll → String
  | .empty => "Empty"
  | .success request => "Success \x7b wr_id: " ++ toString request ++ " \x7d"
  | .failed status request =>
    "Failed \x7b status: " ++ status.name ++ ", wr_id: " ++ toString request ++ " \x7d"

example : (failed .remoteAccessError 9).text = "Failed \x7b status: RemoteAccessError, wr_id: 9 \x7d" := by
  decide +kernel

end Poll

end RemoteSlots
