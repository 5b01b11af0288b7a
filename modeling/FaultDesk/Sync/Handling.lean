import FaultDesk.Incident.Gate
import FaultDesk.Log.Audit
import FaultDesk.Sync.Report

/-!
What becomes of a fault: it is dropped when its key has come before in the run, stopped when an open
complaint is about it, written down only when the run is a simulation, and entered otherwise.
-/

namespace FaultDesk

/-- Where incidents are looked up and faults are entered. -/
structure IncidentBook (σ : Type) where
  find : σ → String → String → Except Failure (Option Incident)
  /-- Enters a fault; whether that went well, and the book after it. -/
  enter : σ → Candidate → Bool × σ

/-- What a run has done with faults so far. -/
structure Handled where
  counts : RunCounts
  /-- The keys that have come. -/
  keys : List (String × String)
  audit : List AuditRecord
deriving Repr

namespace Handled

def none : Handled := ⟨.zero, [], []⟩

/-- The record of a fault that is not entered because the run is a simulation. -/
def simulated (c : Candidate) : AuditRecord :=
  ⟨.simulated, [("table", .text "FAULT"), ("data", .object c.fields)]⟩

/-- Decides what becomes of one fault. -/
def take {σ : Type} (book : IncidentBook σ) (closed : List String) (simulate : Bool) (c : Candidate)
    (h : Handled) (s : σ) : Handled × σ :=
  if h.keys.contains c.key then
    ({ h with counts.batchSuppressed := h.counts.batchSuppressed + 1 }, s)
  else
    let h := { h with keys := c.key :: h.keys }
    match openIncident? closed (book.find s c.unit c.tag) with
    | some i =>
      ({ h with counts.duplicates := h.counts.duplicates + 1,
                audit := h.audit ++ [⟨.skipped, c.suppression i⟩] }, s)
    | .none =>
      if simulate then
        ({ h with counts.processed := h.counts.processed + 1, audit := h.audit ++ [simulated c] }, s)
      else
        match book.enter s c with
        | (true, s) => ({ h with counts.processed := h.counts.processed + 1 }, s)
        | (false, s) => ({ h with counts.errors := h.counts.errors + 1 }, s)

end Handled

end FaultDesk
