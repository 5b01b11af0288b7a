import FaultDesk.Datum.Plain
import FaultDesk.Time.Stamp

/-!
Reports of runs: what a run has counted, how it ended, and when.
-/

namespace FaultDesk

/-- What a run counts. -/
structure RunCounts where
  /-- Faults that were entered, or would have been in a simulation. -/
  processed : Nat
  /-- Faults that an open complaint stopped. -/
  duplicates : Nat
  /-- Faults whose key had come before in the run. -/
  batchSuppressed : Nat
  /-- Faults that could not be entered. -/
  errors : Nat
  /-- All faults that were found. -/
  candidates : Nat
deriving DecidableEq, Repr

namespace RunCounts

def zero : RunCounts := ⟨0, 0, 0, 0, 0⟩

end RunCounts

structure RunReport where
  counts : RunCounts
  /-- Whether another run held the lease. -/
  skipped : Bool
  /-- Why the run failed, if it did. -/
  error : Option String
  started : Instant
  finished : Option Instant
  /-- The time after which samples were read. -/
  since : Option Instant
  /-- The greatest time of the samples that were read, once the run has succeeded. -/
  checkpoint : Option Instant
deriving DecidableEq, Repr

namespace RunReport

def start (now : Instant) : RunReport := ⟨.zero, false, none, now, none, none, none⟩

/-- A report of a run that failed before it began. -/
def failedAt (now : Instant) (error : String) : RunReport :=
  { start now with error := some error, finished := some now }

/-- The entries of a report, with a way to write its times. -/
def fieldsWith (time : Instant → String) (r : RunReport) : List (String × Datum) :=
  let count (n : Nat) : Datum := .int n
  let timeOf (t : Option Instant) : Datum := .ofText? (t.map time)
  [("processed", count r.counts.processed), ("duplicates", count r.counts.duplicates),
    ("batch_suppressed", count r.counts.batchSuppressed), ("errors", count r.counts.errors),
    ("candidates", count r.counts.candidates), ("skipped_run", .truth r.skipped),
    ("failed", .truth r.error.isSome), ("error", .ofText? r.error),
    ("started_at", .text (time r.started)), ("finished_at", timeOf r.finished),
    ("since", timeOf r.since), ("checkpoint", timeOf r.checkpoint)]

def fields (r : RunReport) : List (String × Datum) := r.fieldsWith fun i => (Stamp.utc i).text

end RunReport

end FaultDesk
