import SpikeWatch.Alert.Rule
import SpikeWatch.Decimal.Digits
import SpikeWatch.Text.Quoted

/-!
# Delivering alerts

A notifier hands each alert over once and takes what comes of it as it is.  What it answers to the
first, second, … alert is part of its state, so that everything else can be shown not to depend on
it.
-/

set_option autoImplicit false

namespace SpikeWatch

/-- Why an alert could not be delivered. -/
inductive DeliveryError where
  /-- Delivery was refused, with a reason. -/
  | refused (reason : String)
  /-- The receiver answered with a status of failure. -/
  | status (code : Nat)

/-- What is said about a delivery that failed. -/
def DeliveryError.message : DeliveryError → String
  | refused reason => "Failed to send notification: " ++ reason
  | status code => "Webhook returned status " ++ String.ofList (Decimal.digits code)

/-- What comes of handing over an alert. -/
abbrev Delivery := Except DeliveryError Unit

/-- A notifier: what it answers to the alerts handed over, by their number from zero on, and the
alerts handed over so far. -/
structure Notifier where
  answers : Nat → Delivery := fun _ => .ok ()
  sent : List Alert := []

namespace Notifier

/-- Answers in the same way from now on. -/
def answerWith (n : Notifier) (answer : Delivery) : Notifier :=
  { n with answers := fun _ => answer }

/-- Hands over an alert. -/
def send (n : Notifier) (a : Alert) : Notifier × Delivery :=
  ({ n with sent := n.sent ++ [a] }, n.answers n.sent.length)

end Notifier

/-- The address that alerts are posted to; nothing is posted to the empty one. -/
structure WebhookAddress where
  url : String
  deriving DecidableEq

namespace WebhookAddress

/-- Whether alerts are posted at all. -/
def isEnabled (a : WebhookAddress) : Bool := !a.url.isEmpty

/-- How the address shows itself in messages for developers. -/
def description (a : WebhookAddress) : String :=
  "WebhookNotifier \x7b url: " ++ Text.quoted a.url ++ " \x7d"

end WebhookAddress

end SpikeWatch
