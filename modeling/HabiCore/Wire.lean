import HabiCore.DebugFormat

/-!
# Messages

The messages between nodes and between a node and its administrator, as typed
values.  A `Vec<String>` is a list.
-/

namespace HabiCore

inductive PeerMessage where
  | linkUpHello (sender : String) (ledger spent : List String)
  | linkUpAck (sender : String) (ledger spent : List String)
  | linkDown (sender : String)
  | propagateRequest (sender : String)
  | propagateReply (sender : String) (bearers : List String)
  | spentNotify (sender bearer : String)
  | statusRequest (sender : String)
  | statusReply (sender : String) (ledger spent : List String)
  deriving DecidableEq

inductive AdminMessage where
  | linkUp (peer : String)
  | linkDown (peer : String)
  | propagate (peer : String)
  | spendAt (bearer : String)
  | status
  | seed (bearer : String)
  | conversionDay
  deriving DecidableEq

/-- Reply sent back to an admin client after processing an `AdminMessage`. -/
inductive AdminReply where
  | ok
  | error (detail : String)
  | statusReport (nodeId : String) (ledger spent links : List String)
  deriving DecidableEq

namespace PeerMessage

def debugVariant (name : String) (fields : List (String × String)) : String :=
  name ++ " \x7b " ++ ", ".intercalate (fields.map fun field => field.1 ++ ": " ++ field.2) ++
    " \x7d"

/-- The derived `{:?}` rendering, which the texts of unexpected replies contain. -/
def debug : PeerMessage → String
  | .linkUpHello sender ledger spent =>
      debugVariant "LinkUpHello" [("from", DebugFormat.string sender),
        ("ledger", DebugFormat.strings ledger), ("spent", DebugFormat.strings spent)]
  | .linkUpAck sender ledger spent =>
      debugVariant "LinkUpAck" [("from", DebugFormat.string sender),
        ("ledger", DebugFormat.strings ledger), ("spent", DebugFormat.strings spent)]
  | .linkDown sender => debugVariant "LinkDown" [("from", DebugFormat.string sender)]
  | .propagateRequest sender =>
      debugVariant "PropagateRequest" [("from", DebugFormat.string sender)]
  | .propagateReply sender bearers =>
      debugVariant "PropagateReply" [("from", DebugFormat.string sender),
        ("bearers", DebugFormat.strings bearers)]
  | .spentNotify sender bearer =>
      debugVariant "SpentNotify" [("from", DebugFormat.string sender),
        ("bearer", DebugFormat.string bearer)]
  | .statusRequest sender => debugVariant "StatusRequest" [("from", DebugFormat.string sender)]
  | .statusReply sender ledger spent =>
      debugVariant "StatusReply" [("from", DebugFormat.string sender),
        ("ledger", DebugFormat.strings ledger), ("spent", DebugFormat.strings spent)]

end PeerMessage

end HabiCore
