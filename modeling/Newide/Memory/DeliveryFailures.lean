import Mathlib.Logic.Basic

/-!
# Classified failures

`src/memory/services/delivery-error-classification.ts`: what is thrown
while a delivery is processed becomes a code, a text and the verdict if
a further attempt makes sense.
-/

namespace Newide.Memory

inductive MaintenanceFailureCode where
  | deliveryMissing | payloadUnreadable | downstreamUnavailable | modelError | storageError
  | policyRejected | unknown
deriving DecidableEq

def MaintenanceFailureCode.text : MaintenanceFailureCode → String
  | .deliveryMissing => "delivery_missing"
  | .payloadUnreadable => "payload_unreadable"
  | .downstreamUnavailable => "downstream_unavailable"
  | .modelError => "model_error"
  | .storageError => "storage_error"
  | .policyRejected => "policy_rejected"
  | .unknown => "unknown"

structure DeliveryFailureClassification where
  retryable : Bool
  code : MaintenanceFailureCode
  message : String
deriving DecidableEq

def knownDeliveryFailure (code : MaintenanceFailureCode) (message : String) (retryable : Bool) :
    DeliveryFailureClassification :=
  { retryable, code, message }

inductive ThrownError where
  /-- A schema was not met. -/
  | schema (message : String)
  | errno (code message : String)
  | aborted (message : String)
  | other (message : String)

def transientErrno : List String :=
  ["ECONNREFUSED", "ECONNRESET", "ECONNABORTED", "ETIMEDOUT", "EPIPE", "EHOSTUNREACH",
    "ENETUNREACH", "ENOTFOUND", "EAI_AGAIN", "EAGAIN", "EBUSY", "EMFILE", "ENFILE"]

def permanentErrno : List String :=
  ["EACCES", "EPERM", "EROFS", "EISDIR", "ENOTDIR", "ENOENT", "EINVAL", "ENAMETOOLONG"]

def classifyDeliveryFailure : ThrownError → DeliveryFailureClassification
  | .schema message =>
      knownDeliveryFailure .payloadUnreadable
        ("Delivery payload failed schema validation: " ++ message) false
  | .errno code message =>
      if code ∈ transientErrno then
        knownDeliveryFailure .downstreamUnavailable (code ++ ": " ++ message) true
      else if code ∈ permanentErrno then
        knownDeliveryFailure .storageError (code ++ ": " ++ message) false
      else knownDeliveryFailure .unknown message true
  | .aborted message => knownDeliveryFailure .downstreamUnavailable ("aborted: " ++ message) true
  | .other message => knownDeliveryFailure .unknown message true

end Newide.Memory
