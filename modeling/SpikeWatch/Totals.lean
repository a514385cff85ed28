import SpikeWatch.Decimal.Fixed

/-!
# Totals of the pipeline's work

Six counters that only grow, around the range of sixty-four bits if need be.  What is computed from
two of them may fail instead.
-/

set_option autoImplicit false

namespace SpikeWatch

/-- What the pipeline has done since it started. -/
structure Totals where
  batches : UInt64 := 0
  accepted : UInt64 := 0
  rejected : UInt64 := 0
  insertFailures : UInt64 := 0
  alertsFired : UInt64 := 0
  notificationFailures : UInt64 := 0
  deriving DecidableEq

namespace Totals

/-- Counts a batch and its events. -/
def addBatch (t : Totals) (accepted rejected : UInt64) : Totals :=
  { t with
    batches := t.batches + 1
    accepted := t.accepted + accepted
    rejected := t.rejected + rejected }

/-- Counts a failed insert. -/
def addInsertFailure (t : Totals) : Totals := { t with insertFailures := t.insertFailures + 1 }

/-- Counts an alert, and whether it was delivered. -/
def addAlert (t : Totals) (delivered : Bool) : Totals :=
  { t with
    alertsFired := t.alertsFired + 1
    notificationFailures :=
      if delivered then t.notificationFailures else t.notificationFailures + 1 }

/-- The number of all events.  Unlike the two numbers that it is the sum of, it does not go around:
there is none if it does not fit into sixty-four bits. -/
def total? (t : Totals) : Option UInt64 :=
  if t.accepted.toNat + t.rejected.toNat < UInt64.size then some (t.accepted + t.rejected)
  else none

/-- The share of the events that were rejected, in percent, if there is a number of all events. -/
def rejectionRate? (t : Totals) : Option Double :=
  t.total?.map fun total =>
    if total = 0 then .zero false
    else (.ofNat t.rejected.toNat : Double) / .ofNat total.toNat * .ofNat 100

/-- The totals in one line, which shows the share of rejected events. -/
def summary? (t : Totals) : Option String :=
  let shown (n : UInt64) : String := String.ofList (Decimal.digits n.toNat)
  t.rejectionRate?.map fun rate =>
    "Pipeline totals: " ++ shown t.batches ++ " batches, " ++ shown t.accepted ++ " accepted, " ++
      shown t.rejected ++ " rejected (" ++ String.ofList (rate.fixed 1) ++ "%), " ++
      shown t.insertFailures ++ " insert failures, " ++ shown t.alertsFired ++ " alerts (" ++
      shown t.notificationFailures ++ " undelivered)"

end Totals

end SpikeWatch
