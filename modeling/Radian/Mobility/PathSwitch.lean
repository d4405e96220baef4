import Radian.Mobility.Handover

/-!
# Xn path switch

A UE has moved over Xn; its new gNB asks for the downlink path to be switched.

- `takeOver` — the context is here already, or whichever other association owns it hands it over.
- `onPathSwitch` — rotate the chain, switch the sessions, and answer.
- `Request`, `handle` — all an association or a timer task is given to do with mobility.
-/

namespace Radian.Mobility

open Amf (AmfUeId Channel UeContext)
open Security (Bytes)

variable (nh : Bytes → Bytes → Bytes)

def askAll (amfUeId : AmfUeId) : List Channel → MobilityM (List Nat)
  | [] => return []
  | tx :: rest => do
      let reply ← askUe amfUeId tx
      let more ← askAll amfUeId rest
      return reply :: more

/-- The first context among the replies; the others are then not waited for.  `n` bounds how many
replies there are. -/
def firstTaken : (n : Nat) → List Nat → MobilityM (Option UeContext)
  | 0, _ => return none
  | n + 1, asks => do
      let (reply, taken) ← Proc.ask (Call.nextReply asks)
      match taken with
      | some c =>
          Proc.mark (.abandoning (asks.erase reply))
          return some c
      | none => firstTaken n (asks.erase reply)

def takeOver (amfUeId : AmfUeId) : MobilityM Bool := do
  match ← getUe amfUeId with
  | some _ => return true
  | none =>
      let others ← Proc.look fun l s => s.others l.tx
      let asks ← askAll amfUeId others
      match ← firstTaken asks.length asks with
      | some c =>
          Proc.mark (.switched amfUeId c)
          insertUe amfUeId c
          return true
      | none => return false

/-- Switch the sessions, and say which were. -/
def switchSessions (amfUeId : AmfUeId) : List (UInt8 × Fteid) → MobilityM (List UInt8)
  | [] => return []
  | session :: rest => do
      let ok ← repoint amfUeId session
      let more ← switchSessions amfUeId rest
      return if ok then session.1 :: more else more

def onPathSwitch (params : Option PathSwitchRequest) : MobilityM (Option Downlink) := do
  match params with
  | none => return none
  | some req =>
      let failure (cause : RadioCause) : Option Downlink :=
        some (.pathSwitchRequestFailure req.amfUeId req.newRanUeId
          (req.sessions.map fun s => s.1) cause)
      if ← takeOver req.amfUeId then
        match ← getUe req.amfUeId with
        | none => return none
        | some c =>
            match c.freshPair nh with
            | none => return failure .unspecified
            | some (freshNh, freshNcc) =>
                modifyUe req.amfUeId
                  (UeContext.arrive req.newRanUeId req.tac (freshNh, freshNcc))
                address req.amfUeId c
                let switched ← switchSessions req.amfUeId req.sessions
                return some (.pathSwitchRequestAcknowledge req.amfUeId req.newRanUeId freshNcc
                  freshNh switched)
      else return failure .unknownLocalUeNgapId

/-! ### Requests -/

/-- A message from the gNB of an association. -/
def handleNgap : Pdu → MobilityM Unit
  | .handoverRequired params => do
      let answer ← onHandoverRequired nh params
      send answer
  | .handoverRequestAcknowledge params => onHandoverRequestAck params
  | .handoverFailure params => onHandoverFailure params
  | .handoverCancel params => do
      let answer ← onHandoverCancel params
      send answer
  | .handoverNotify params => onHandoverNotify params
  | .pathSwitchRequest params => do
      let answer ← onPathSwitch nh params
      send answer

inductive Request where
  | ngap (pdu : Pdu)
  | takeUe (cmd : TakeUe)
  | timer (t : Timer)
  deriving DecidableEq, Repr

def handle : Request → MobilityM Unit
  | .ngap pdu => handleNgap nh pdu
  | .takeUe cmd => onTakeUe cmd
  | .timer t => onTimer t

end Radian.Mobility
