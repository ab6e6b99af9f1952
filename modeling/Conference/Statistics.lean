import Conference.Csv

/-!
# Statistics

Measured data of a scheduling pass, one event for each request. An event holds a value for some of
the columns; the others are written as `NA`.
-/

namespace Conference.Statistics

inductive Column where
  | passId
  | requestId
  | specificationKind
  | slotStart
  | slotEnd
  /-- Whether the request was allocated or failed. -/
  | outcome
  | failureKind
  /-- The number of nodes in the tree of reservations. -/
  | reservationCount
  /-- The number of reports of a failed allocation. -/
  | reportCount
  /-- The time taken, in microseconds. -/
  | processingTime
deriving DecidableEq

namespace Column

/-- The columns in the order in which they are written. -/
def all : List Column :=
  [passId, requestId, specificationKind, slotStart, slotEnd, outcome, failureKind, reservationCount,
    reportCount, processingTime]

def header : Column → String
  | passId => "PassId"
  | requestId => "RequestId"
  | specificationKind => "SpecificationKind"
  | slotStart => "SlotStart"
  | slotEnd => "SlotEnd"
  | outcome => "Outcome"
  | failureKind => "FailureKind"
  | reservationCount => "ReservationCount"
  | reportCount => "ReportCount"
  | processingTime => "ProcessingTime"

def ofHeader? (text : String) : Option Column := all.find? (·.header == text)

end Column

inductive Value where
  | integer (n : Int)
  | text (s : String)
deriving DecidableEq

def Value.render : Value → String
  | integer n => toString n
  | text s => s

/-- The values of an event; of several for one column the first counts. -/
structure Event where
  values : List (Column × Value)
deriving DecidableEq

namespace Event

def empty : Event := ⟨[]⟩

def set (e : Event) (column : Column) (value : Value) : Event := ⟨(column, value) :: e.values⟩

def get? (e : Event) (column : Column) : Option Value := e.values.lookup column

def record (e : Event) : List String :=
  Column.all.map fun column => match e.get? column with
    | some value => value.render
    | none => "NA"

end Event

/-- The words for the outcome of a request. -/
def allocated : String := "ALLOCATED"

@[inherit_doc allocated]
def failed : String := "FAILED"

def countOutcome (word : String) (events : List Event) : Nat :=
  events.countP (fun e => e.get? .outcome == some (.text word))

def allocatedCount (events : List Event) : Nat := countOutcome allocated events

def failedCount (events : List Event) : Nat := countOutcome failed events

def records (events : List Event) : List (List String) :=
  Column.all.map (·.header) :: events.map (·.record)

def csv (events : List Event) : String := Csv.render (records events)

end Conference.Statistics
