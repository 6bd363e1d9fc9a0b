import GraphStore.Error
import GraphStore.OrderedMap

/-!
Contract: what goes into a scan and what comes out of it.

Owns the settings (workers, keys per batch, partitions), the counters, which wrap at `2 ^ 64`, the
lifecycle states and the report. A scan is completed when nothing failed and nobody cancelled it.
-/

namespace GraphStore

structure ScanOptions where
  workers : Nat
  /-- The keys that one walk over a partition accepts. -/
  keysPerBatch : Nat
  partitions : Nat
deriving DecidableEq, Repr

/-- The usual settings: four partitions for each of four workers. -/
def ScanOptions.standard : ScanOptions := ⟨4, 1000, 16⟩

structure ScanMetrics where
  successes : UInt64
  failures : UInt64
  custom : OrderedMap String UInt64
deriving DecidableEq

namespace ScanMetrics

def zero : ScanMetrics := ⟨0, 0, .empty⟩

def succeed (metrics : ScanMetrics) : ScanMetrics :=
  { metrics with successes := metrics.successes + 1 }

def fail (metrics : ScanMetrics) : ScanMetrics :=
  { metrics with failures := metrics.failures + 1 }

/-- The value of a named counter; one never used is zero. -/
def get (metrics : ScanMetrics) (name : String) : UInt64 := metrics.custom.findD name 0

def add (metrics : ScanMetrics) (name : String) (count : UInt64) : ScanMetrics :=
  { metrics with custom := metrics.custom.insert name (metrics.get name + count) }

end ScanMetrics

/-- Where a scan stands. -/
inductive ScanState where
  | running
  | completed
  | failed
deriving DecidableEq, Repr

def ScanState.label : ScanState → String
  | running => "running"
  | completed => "completed"
  | failed => "failed"

structure ScanReport where
  job : String
  metrics : ScanMetrics
  /-- The keys that workers have reported as handled. -/
  keysScanned : UInt64
  cancelled : Bool
deriving DecidableEq

namespace ScanReport

def state (report : ScanReport) : ScanState :=
  if report.metrics.failures = 0 ∧ report.cancelled = false then .completed else .failed

def isSuccess (report : ScanReport) : Bool := report.state = .completed

/-- The report of a completed scan, or the failure of one that is not. -/
def toResult (report : ScanReport) : Result ScanReport :=
  if report.isSuccess then .ok report
  else .error (.scanFailed report.job report.metrics.failures report.metrics.successes)

end ScanReport

end GraphStore
