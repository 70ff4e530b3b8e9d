import PeerFleet.Config.Validation
import PeerFleet.Report.Table

/-! # Summary of a configuration -/

namespace PeerFleet.Report

def numbers (ns : List UInt32) : String :=
  "[" ++ ", ".intercalate (ns.map toString) ++ "]"

def workers (w : WorkerSettings) : String :=
  "Workers:\n" ++
  s!"  expiration      daily at {w.expirationAt} UTC\n" ++
  s!"  notification    daily at {w.notificationAt} UTC, thresholds {numbers w.notifyDays} days\n" ++
  s!"  health-check    every {w.healthIntervalSecs}s, timeout {w.healthTimeoutSecs}s\n" ++
  s!"  provisioning    every {w.provisioningIntervalSecs}s\n" ++
  (if w.peerCountEnabled then s!"  peer-count      every {w.peerCountIntervalSecs}s\n" else "")

def findings (v : Verdict) : String :=
  if v.findings.isEmpty then "" else "\nFindings:\n" ++ v.render

def summary (c : FleetConfig) (v : Verdict) : String :=
  s!"Nodes ({c.nodes.length}):\n" ++ nodes c.nodes ++ "\n" ++ workers c.workers ++
    s!"Admins: {c.admins.length}\n" ++ findings v ++
    (if v.passed then "\nConfiguration OK\n" else "\nConfiguration has errors\n")

end PeerFleet.Report
