import Wirerust.Machine

/-!
The lookup of MITRE ATT&CK techniques (`mitre.rs`).
-/

namespace Wirerust

inductive MitreTactic
  | reconnaissance
  | resourceDevelopment
  | initialAccess
  | execution
  | persistence
  | privilegeEscalation
  | defenseEvasion
  | credentialAccess
  | discovery
  | lateralMovement
  | collection
  | commandAndControl
  | exfiltration
  | impact
  | icsInhibitResponseFunction
  | icsImpairProcessControl
  | icsImpact
  | icsDiscovery
  | icsCollection
  | icsCommandAndControl
  | icsExecution
  deriving DecidableEq, Repr

def MitreTactic.display : MitreTactic → String
  | .reconnaissance => "Reconnaissance"
  | .resourceDevelopment => "Resource Development"
  | .initialAccess => "Initial Access"
  | .execution => "Execution"
  | .persistence => "Persistence"
  | .privilegeEscalation => "Privilege Escalation"
  | .defenseEvasion => "Defense Evasion"
  | .credentialAccess => "Credential Access"
  | .discovery => "Discovery"
  | .lateralMovement => "Lateral Movement"
  | .collection => "Collection"
  | .commandAndControl => "Command and Control"
  | .exfiltration => "Exfiltration"
  | .impact => "Impact"
  | .icsInhibitResponseFunction => "Inhibit Response Function"
  | .icsImpairProcessControl => "Impair Process Control"
  | .icsImpact => "Impact (ICS)"
  | .icsDiscovery => "Discovery (ICS)"
  | .icsCollection => "Collection (ICS)"
  | .icsCommandAndControl => "Command and Control (ICS)"
  | .icsExecution => "Execution (ICS)"

namespace Mitre

def allTacticsInReportOrder : List MitreTactic :=
  [.reconnaissance, .resourceDevelopment, .initialAccess, .execution, .persistence,
    .privilegeEscalation, .defenseEvasion, .credentialAccess, .discovery, .lateralMovement,
    .collection, .commandAndControl, .exfiltration, .impact, .icsInhibitResponseFunction,
    .icsImpairProcessControl, .icsImpact, .icsDiscovery, .icsCollection, .icsCommandAndControl,
    .icsExecution]

/-- The arms of the `match` of `technique_info`. -/
def techniques : List (String × String × MitreTactic) := [
  ("T1027", "Obfuscated Files or Information", .defenseEvasion),
  ("T1036", "Masquerading", .defenseEvasion),
  ("T1040", "Network Sniffing", .credentialAccess),
  ("T1046", "Network Service Discovery", .discovery),
  ("T1071", "Application Layer Protocol", .commandAndControl),
  ("T1071.001", "Web Protocols", .commandAndControl),
  ("T1071.004", "DNS", .commandAndControl),
  ("T1083", "File and Directory Discovery", .discovery),
  ("T1499.002", "Service Exhaustion Flood", .impact),
  ("T1505.003", "Web Shell", .persistence),
  ("T1573", "Encrypted Channel", .commandAndControl),
  ("T0846", "Remote System Discovery", .icsDiscovery),
  ("T1692.001", "Unauthorized Message: Command Message", .icsImpairProcessControl),
  ("T1692.002", "Unauthorized Message: Reporting Message", .icsImpairProcessControl),
  ("T0885", "Commonly Used Port", .icsCommandAndControl),
  ("T0836", "Modify Parameter", .icsImpairProcessControl),
  ("T0814", "Denial of Service", .icsInhibitResponseFunction),
  ("T0806", "Brute Force I/O", .icsImpairProcessControl),
  ("T0835", "Manipulate I/O Image", .icsImpairProcessControl),
  ("T0831", "Manipulation of Control", .icsImpact),
  ("T0888", "Remote System Information Discovery", .icsDiscovery),
  ("T1691.001", "Block Operational Technology Message: Command Message",
    .icsInhibitResponseFunction),
  ("T0827", "Loss of Control", .icsImpact),
  ("T0830", "Adversary-in-the-Middle", .icsCollection),
  ("T1557.002", "Adversary-in-the-Middle: ARP Cache Poisoning", .credentialAccess),
  ("T0858", "Change Operating Mode", .icsExecution),
  ("T0816", "Device Restart/Shutdown", .icsInhibitResponseFunction),
  ("T1693.001", "Modify Firmware: System Firmware", .icsInhibitResponseFunction),
  ("T0881", "Service Stop", .icsInhibitResponseFunction)]

def techniqueInfo (id : String) : Option (String × MitreTactic) := techniques.lookup id

def techniqueName (id : String) : Option String := (techniqueInfo id).map Prod.fst

def techniqueTactic (id : String) : Option MitreTactic := (techniqueInfo id).map Prod.snd

/-- No tactic is missing from the order of the report, so that no finding can be. -/
theorem mem_allTactics (t : MitreTactic) : t ∈ allTacticsInReportOrder := by
  cases t <;> decide

theorem techniqueName_mem {id name : String} (h : techniqueName id = some name) :
    ∃ t ∈ techniques, t.2.1 = name := by
  obtain ⟨info, hinfo, rfl⟩ := Option.map_eq_some_iff.mp h
  obtain ⟨pre, post, hsplit, -⟩ := List.lookup_eq_some_iff.mp hinfo
  exact ⟨(id, info), by rw [hsplit]; simp, rfl⟩

end Mitre

end Wirerust
