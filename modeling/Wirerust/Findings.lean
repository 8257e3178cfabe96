import Wirerust.Reassembly.Flow

/-!
Findings (`findings.rs`), the common result type of the engine and the analyzers.

`timestamp` holds the seconds that the code turns into a `DateTime<Utc>`; every `u32` has
one, so nothing is lost.
-/

namespace Wirerust

inductive Verdict
  | likely
  | unlikely
  | inconclusive
  | possible
  deriving DecidableEq, Repr

inductive Confidence
  | high
  | medium
  | low
  deriving DecidableEq, Repr

inductive ThreatCategory
  | reconnaissance
  | lateralMovement
  | c2
  | exfiltration
  | credentialAccess
  | persistence
  | execution
  | anomaly
  | suspicious
  | impact
  deriving DecidableEq, Repr

structure Finding where
  category : ThreatCategory
  verdict : Verdict
  confidence : Confidence
  summary : String
  evidence : List String
  mitreTechniques : List String
  sourceIp : Option IpAddr
  timestamp : Option UInt32
  direction : Option Flow.Direction
  deriving DecidableEq

end Wirerust
