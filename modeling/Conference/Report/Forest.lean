import Conference.Report
import Conference.Text.Line

/-!
# Report forests

Reports form a forest that explains an allocation: what was tried under each step, and why it
failed. The forest is the sequence of its reports in order of creation, each with the place of its
parent, which is always created earlier. `children`, `roots` and the rendering are read off from
that sequence.
-/

namespace Conference

structure ReportForest.Entry where
  report : Report
  isError : Bool
  parent : Option Nat
deriving DecidableEq

/-- Reports in order of creation. A report is named by its place. -/
structure ReportForest where
  entries : List ReportForest.Entry
deriving DecidableEq

namespace ReportForest

def empty : ReportForest := ⟨[]⟩

def size (f : ReportForest) : Nat := f.entries.length

def get? (f : ReportForest) (id : Nat) : Option Entry := f.entries[id]?

/-- Adds a root. Its name is the size of the forest before. -/
def addRoot (f : ReportForest) (report : Report) : ReportForest :=
  ⟨f.entries ++ [⟨report, false, none⟩]⟩

/-- Adds a child. Under a parent that does not exist the report becomes a root. A report has no name
before it is made, so no parent names the report about to be made, and it does not matter that the
report is stored before its parent is looked up. -/
def addChild (f : ReportForest) (parent : Nat) (report : Report) : ReportForest :=
  ⟨f.entries ++ [⟨report, false, if parent < f.size then some parent else none⟩]⟩

/-- Marks a report as an error, if it exists. -/
def markError (f : ReportForest) (id : Nat) : ReportForest :=
  ⟨f.entries.modify id (fun e => { e with isError := true })⟩

def parent? (f : ReportForest) (id : Nat) : Option Nat := (f.get? id).bind (·.parent)

/-- The reports whose parent is the given one, in order of creation. -/
def withParent (f : ReportForest) (parent : Option Nat) : List Nat :=
  (f.entries.zipIdx.filter (fun e => e.1.parent == parent)).map (·.2)

def roots (f : ReportForest) : List Nat := f.withParent none

def children (f : ReportForest) (id : Nat) : List Nat := f.withParent (some id)

/-- The message of a report; nothing for a report that does not exist. -/
def text (f : ReportForest) (id : Nat) : String :=
  match f.get? id with
  | some e => e.report.message
  | none => ""

def help? (f : ReportForest) (id : Nat) : Option String := (f.get? id).bind (·.report.help?)

/-- The first failure on the way from a report to its root, over at most `steps` reports. -/
def failureWithin (f : ReportForest) : (steps id : Nat) → Option FailureKind
  | 0, _ => none
  | steps + 1, id =>
    match f.get? id with
    | none => none
    | some e => match e.report.failureKind? with
      | some kind => some kind
      | none => match e.parent with
        | some parent => failureWithin f steps parent
        | none => none

/-- The first failure on the way from a report to its root. -/
def failureKind? (f : ReportForest) (id : Nat) : Option FailureKind := f.failureWithin f.size id

/-- A report and its descendants in pre-order, with their depths below `depth`, over at most
`levels` levels. -/
def outlineWithin (f : ReportForest) : (levels depth id : Nat) → List (Nat × Nat)
  | 0, _, _ => []
  | levels + 1, depth, id =>
    if id < f.size then
      (depth, id) :: (f.children id).flatMap (outlineWithin f levels (depth + 1))
    else []

/-- A report and its descendants in pre-order, each with its depth. -/
def outline (f : ReportForest) (id : Nat) : List (Nat × Nat) := f.outlineWithin f.size 0 id

/-- All reports in pre-order of the roots, each with its depth. -/
def outlineAll (f : ReportForest) : List (Nat × Nat) := f.roots.flatMap f.outline

def subtree (f : ReportForest) (id : Nat) : List Nat := (f.outline id).map (·.2)

/-- The reports of a subtree that satisfy `p`, in pre-order. -/
def find (f : ReportForest) (id : Nat) (p : Entry → Bool) : List Nat :=
  (f.subtree id).filter (fun i => (f.get? i).any p)

/-- The lines of a message, the first behind a dash and the others aligned with it. -/
def ownLines (message : String) : List String :=
  match Text.lines message with
  | [] => []
  | first :: others => ("-" ++ first) :: others.map (" " ++ ·)

/-- The lines of a child, drawn as a branch below its parent. The bar of a child that is not the
last runs on past its lines. -/
def branch (isLast : Bool) : List String → List String
  | [] => []
  | first :: others => ("  +" ++ first) :: others.map ((if isLast then "   " else "  |") ++ ·)

/-- The branches of several children, the last of them without a bar. -/
def branches : List (List String) → List String
  | [] => []
  | [last] => branch true last
  | child :: others => branch false child ++ branches others

/-- The lines that draw a report and at most `levels` levels of its subtree. -/
def linesWithin (f : ReportForest) : (levels id : Nat) → List String
  | 0, _ => []
  | levels + 1, id =>
    match f.get? id with
    | none => []
    | some e => ownLines e.report.message ++ branches ((f.children id).map (linesWithin f levels))

def lines (f : ReportForest) (id : Nat) : List String := f.linesWithin f.size id

def render (f : ReportForest) (id : Nat) : String := "\n".intercalate (f.lines id)

/-- The drawings of all roots, one below the other. -/
def renderAll (f : ReportForest) : String := "\n".intercalate (f.roots.map f.render)

/-! ## What the operations do to the sequence of reports -/

@[simp]
theorem size_addRoot (f : ReportForest) (report : Report) :
    (f.addRoot report).size = f.size + 1 := by
  rw [size, addRoot, List.length_append, size]
  rfl

@[simp]
theorem size_addChild (f : ReportForest) (parent : Nat) (report : Report) :
    (f.addChild parent report).size = f.size + 1 := by
  rw [size, addChild, List.length_append, size]
  rfl

@[simp]
theorem size_markError (f : ReportForest) (id : Nat) : (f.markError id).size = f.size := by
  rw [size, markError, List.length_modify, size]

/-- A new report at the end leaves the reports before it as they were. -/
theorem get?_concat (f : ReportForest) (e : Entry) (id : Nat) :
    (⟨f.entries ++ [e]⟩ : ReportForest).get? id = if id = f.size then some e else f.get? id := by
  rw [get?, get?]
  rcases Nat.lt_trichotomy id f.size with h | h | h
  · rw [List.getElem?_append_left h, if_neg (Nat.ne_of_lt h)]
  · rw [h, if_pos rfl]
    exact List.getElem?_concat_length
  · -- beyond the end there was nothing and there is nothing
    rw [if_neg (Nat.ne_of_gt h), List.getElem?_eq_none (by simp; exact h),
      List.getElem?_eq_none (Nat.le_of_lt h)]

/-- Marking changes the mark of one report and nothing else. -/
theorem get?_markError (f : ReportForest) (marked id : Nat) :
    (f.markError marked).get? id
      = (f.get? id).map (fun e => if marked = id then { e with isError := true } else e) := by
  rw [get?, markError, List.getElem?_modify, get?]
  by_cases h : marked = id <;> simp [h]

end ReportForest

end Conference
