import Conference.Proofs.Report.Outline
import Mathlib.Data.List.Perm.Basic
import Mathlib.Data.PFun

/-!
# Reports that know their children

A forest can be kept in an arena where each report has the list of its children, with a list of the
roots beside it. A new report goes to the end of one of these lists, so they hold every report, each
of them once. To search a subtree the arena goes by the lists, with the reports to come on a stack,
and to draw it goes down from each report to its children, for as long as it takes. Both come to an
end, since children are younger than their parents.

The arena of a forest has the entries of the forest with the children that the forest tells, and
each operation on the arena does what it does to the forest. A name is given out when its report is
made, so no report is made under its own name.
-/

namespace Conference

/-- What can be done to a forest of reports. -/
inductive ReportForest.Operation where
  | addRoot (report : Report)
  | addChild (parent : Nat) (report : Report)
  | markError (id : Nat)

namespace ReportForest

variable {f : ReportForest}

def perform (f : ReportForest) : Operation → ReportForest
  | .addRoot report => f.addRoot report
  | .addChild parent report => f.addChild parent report
  | .markError id => f.markError id

/-- The forest that some operations make of the empty one. -/
def after (ops : List Operation) : ReportForest := ops.foldl perform empty

/-- Every operation keeps parents older than their children. -/
theorem Aged.perform (aged : f.Aged) (op : Operation) : (f.perform op).Aged := by
  cases op with
  | addRoot report =>
    have added : f.Adds none (f.addRoot report) := adds_concat f rfl
    have orphan : ∀ p ∈ none, p < f.size := nofun
    intro id e p
    exact added.aged aged orphan
  | addChild parent report =>
    refine (adds_concat f rfl).aged aged fun p mem => ?_
    -- a parent that is not there makes the report a root
    split at mem
    · rename_i below
      obtain rfl := Option.some.inj mem
      exact below
    · cases mem
  | markError id => exact aged.markError id

end ReportForest

/-- A report that knows its children. -/
structure ReportArena.Node where
  entry : ReportForest.Entry
  children : List Nat

structure ReportArena where
  nodes : List ReportArena.Node
  roots : List Nat

namespace ReportArena

open ReportForest (Entry Operation)

def empty : ReportArena := ⟨[], []⟩

def addRoot (a : ReportArena) (report : Report) : ReportArena :=
  ⟨a.nodes ++ [⟨⟨report, false, none⟩, []⟩], a.roots ++ [a.nodes.length]⟩

def Node.adopt (child : Nat) (node : Node) : Node :=
  { node with children := node.children ++ [child] }

def Node.mark (node : Node) : Node := { node with entry := { node.entry with isError := true } }

/-- Adds a report as the last child of another one, or as the last root if there is no such report.
The parent is looked up among the reports that are there already. The report about to be made is
none of them: no parent names it, since its name is given out only when it is made. -/
def addChild (a : ReportArena) (parent : Nat) (report : Report) : ReportArena :=
  if parent < a.nodes.length then
    ⟨a.nodes.modify parent (Node.adopt a.nodes.length)
      ++ [⟨⟨report, false, some parent⟩, []⟩], a.roots⟩
  else a.addRoot report

def markError (a : ReportArena) (id : Nat) : ReportArena :=
  { a with nodes := a.nodes.modify id Node.mark }

def perform (a : ReportArena) : Operation → ReportArena
  | .addRoot report => a.addRoot report
  | .addChild parent report => a.addChild parent report
  | .markError id => a.markError id

/-- The arena that some operations make of the empty one. -/
def after (ops : List Operation) : ReportArena := ops.foldl perform empty

/-- All lists of children, one after the other, behind the list of roots. -/
def listed (a : ReportArena) : List Nat := a.roots ++ a.nodes.flatMap (·.children)

/-- Takes a report off the stack. If there was none, the result is complete, else the search goes
on. -/
def visit (a : ReportArena) (p : Entry → Bool) :
    List Nat × List Nat → List Nat ⊕ List Nat × List Nat
  | ([], result) => .inl result
  | (id :: stack, result) =>
    match a.nodes[id]? with
    | none => .inr (stack, result)
    -- the children come before the other reports, in their order
    | some node => .inr (node.children ++ stack, if p node.entry then result ++ [id] else result)

/-- Goes through the reports on the stack and those below them. There is no result if that never
ends. -/
def traverse (a : ReportArena) (p : Entry → Bool) (stack result : List Nat) : Part (List Nat) :=
  (PFun.lift (a.visit p)).fix (stack, result)

/-- The reports of a subtree that satisfy `p`. -/
def find (a : ReportArena) (id : Nat) (p : Entry → Bool) : Part (List Nat) := a.traverse p [id] []

/-- The lines of each report are those of its message, with the lines of its children as branches
below them. -/
def Draws (a : ReportArena) (lines : Nat → List String) : Prop :=
  ∀ id, lines id = match a.nodes[id]? with
    | none => []
    | some node =>
      ReportForest.ownLines node.entry.report.message
        ++ ReportForest.branches (node.children.map lines)

/-! ## Each report is listed once -/

/-- One more child of one node is one more child in all, wherever the node stands. By induction on
the nodes. -/
theorem flatMap_children_modify (nodes : List Node) (child : Nat) :
    ∀ {parent : Nat}, parent < nodes.length →
    ((nodes.modify parent (Node.adopt child)).flatMap (·.children)).Perm
      (nodes.flatMap (·.children) ++ [child]) := by
  induction nodes with
  | nil => exact fun below => absurd below (Nat.not_lt_zero _)
  | cons node nodes ih =>
    intro parent below
    cases parent with
    | zero =>
      rw [List.modify_zero_cons, List.flatMap_cons, List.flatMap_cons, Node.adopt,
        List.append_assoc, List.append_assoc]
      exact List.perm_append_comm.append_left _
    | succ parent =>
      rw [List.modify_succ_cons, List.flatMap_cons, List.flatMap_cons, List.append_assoc]
      exact (ih (Nat.lt_of_succ_lt_succ below)).append_left _

/-- A mark does not change the children. -/
theorem flatMap_children_mark (nodes : List Node) :
    ∀ id : Nat, (nodes.modify id Node.mark).flatMap (·.children) = nodes.flatMap (·.children) := by
  induction nodes with
  | nil => exact fun _ => by rw [List.modify_nil]
  | cons node nodes ih =>
    intro id
    cases id with
    | zero =>
      rw [List.modify_zero_cons]
      rfl
    | succ id => rw [List.modify_succ_cons, List.flatMap_cons, List.flatMap_cons, ih]

/-- The lists hold exactly the reports that there are, each of them once. -/
def IsListed (a : ReportArena) : Prop := a.listed.Perm (List.range a.nodes.length)

/-- A new root is listed among the roots. -/
theorem IsListed.addRoot {a : ReportArena} (listed : a.IsListed) (report : Report) :
    (a.addRoot report).IsListed := by
  unfold IsListed ReportArena.listed ReportArena.addRoot
  rw [List.length_append, List.length_singleton, List.range_succ,
    List.flatMap_append, List.append_assoc]
  -- the new root stands behind the other roots, where it can be moved to the end
  refine List.Perm.trans ?_ (listed.append_right [a.nodes.length])
  rw [ReportArena.listed, List.append_assoc]
  refine List.Perm.append_left _ ?_
  rw [List.flatMap_singleton, List.append_nil]
  exact List.perm_append_comm

/-- A new child is listed under its parent, or as a root when the parent is not there. -/
theorem IsListed.addChild {a : ReportArena} (listed : a.IsListed) (parent : Nat) (report : Report) :
    (a.addChild parent report).IsListed := by
  unfold ReportArena.addChild
  split
  · rename_i below
    unfold IsListed ReportArena.listed
    rw [List.length_append, List.length_singleton, List.length_modify, List.range_succ,
      List.flatMap_append, List.flatMap_singleton, List.append_nil]
    refine List.Perm.trans ?_ (listed.append_right [a.nodes.length])
    rw [ReportArena.listed, List.append_assoc]
    exact (flatMap_children_modify a.nodes a.nodes.length below).append_left _
  · exact listed.addRoot report

theorem IsListed.markError {a : ReportArena} (listed : a.IsListed) (id : Nat) :
    (a.markError id).IsListed := by
  unfold IsListed ReportArena.listed ReportArena.markError
  rw [List.length_modify, flatMap_children_mark]
  exact listed

/-- Every operation lists its new report once and keeps what is listed. -/
theorem IsListed.perform {a : ReportArena} (listed : a.IsListed) (op : Operation) :
    (a.perform op).IsListed := by
  cases op with
  | addRoot report => exact listed.addRoot report
  | addChild parent report => exact listed.addChild parent report
  | markError id => exact listed.markError id

/-! ## The arena of a forest -/

def ofForest (f : ReportForest) : ReportArena :=
  ⟨f.entries.mapIdx fun id e => ⟨e, f.children id⟩, f.roots⟩

variable {f : ReportForest}

theorem length_ofForest (f : ReportForest) : (ofForest f).nodes.length = f.size :=
  List.length_mapIdx

theorem getElem?_ofForest (f : ReportForest) (id : Nat) :
    (ofForest f).nodes[id]? = (f.get? id).map fun e => ⟨e, f.children id⟩ := List.getElem?_mapIdx

/-- Adding a root writes what the forest with the root is stored as. -/
theorem addRoot_ofForest (aged : f.Aged) (report : Report) :
    (ofForest f).addRoot report = ofForest (f.addRoot report) := by
  have childless : f.children f.size = [] := ReportForest.children_eq_nil aged (Nat.le_refl _)
  unfold ofForest addRoot
  rw [ReportForest.roots_addRoot, funext (ReportForest.children_addRoot report),
    ReportForest.addRoot, List.mapIdx_concat, List.length_mapIdx]
  congr 3
  exact congrArg (Node.mk _) childless.symm

/-- The same for a child, which is appended to the children of its parent. No report has named the
new place as its parent before. -/
theorem addChild_ofForest (aged : f.Aged) (parent : Nat) (report : Report) :
    (ofForest f).addChild parent report = ofForest (f.addChild parent report) := by
  unfold addChild
  rw [length_ofForest]
  split
  · rename_i below
    have childless : f.children f.size ++ (if parent = f.size then [f.size] else []) = [] := by
      rw [ReportForest.children_eq_nil aged (Nat.le_refl _),
        if_neg (Nat.ne_of_lt below), List.append_nil]
    unfold ofForest
    rw [ReportForest.roots_addChild below, funext (ReportForest.children_addChild below report),
      ReportForest.addChild_of_lt below, List.mapIdx_concat]
    congr 2
    · refine List.ext_getElem? fun id => ?_
      rw [List.getElem?_modify, List.getElem?_mapIdx, List.getElem?_mapIdx]
      cases f.entries[id]? with
      | none => rfl
      | some e =>
        -- only the parent has got a child
        by_cases same : parent = id
        · simp [same, Node.adopt]
        · simp [same]
    · exact congrArg (fun children =>
        [Node.mk ⟨report, false, some parent⟩ children]) childless.symm
  · rename_i absent
    rw [ReportForest.addChild_of_not_lt absent]
    exact addRoot_ofForest aged report

/-- A mark changes one entry and no link. -/
theorem markError_ofForest (f : ReportForest) (id : Nat) :
    (ofForest f).markError id = ofForest (f.markError id) := by
  have children (parent : Nat) : (f.markError id).children parent = f.children parent :=
    f.withParent_markError id _
  have roots : (f.markError id).roots = f.roots := f.withParent_markError id none
  unfold ofForest markError
  rw [roots, funext children]
  congr 1
  -- a mark changes the entry at its place and no link
  refine List.ext_getElem? fun i => ?_
  rw [List.getElem?_modify, List.getElem?_mapIdx, List.getElem?_mapIdx,
    ReportForest.markError, List.getElem?_modify]
  cases f.entries[i]? with
  | none => rfl
  | some e =>
    by_cases same : id = i
    · simp [same, Node.mark]
    · simp [same]

/-- Each operation of the arena is the operation of the forest, stored. -/
theorem perform_ofForest (aged : f.Aged) (op : Operation) :
    (ofForest f).perform op = ofForest (f.perform op) := by
  cases op with
  | addRoot report => exact addRoot_ofForest aged report
  | addChild parent report => exact addChild_ofForest aged parent report
  | markError id => exact markError_ofForest f id

/-- By induction on the operations: the arena stays that of the forest, and lists all reports. -/
theorem foldl_perform (ops : List Operation) :
    ∀ {f : ReportForest}, f.Aged → (ofForest f).IsListed →
    (ops.foldl ReportForest.perform f).Aged
      ∧ ops.foldl perform (ofForest f) = ofForest (ops.foldl ReportForest.perform f)
      ∧ (ofForest (ops.foldl ReportForest.perform f)).IsListed := by
  induction ops with
  | nil => exact fun aged listed => ⟨aged, rfl, listed⟩
  | cons op ops ih =>
    intro f aged listed
    rw [List.foldl_cons, List.foldl_cons, perform_ofForest aged op]
    exact ih (aged.perform op) (perform_ofForest aged op ▸ listed.perform op)

/-- What operations have built is a stored forest in which each report is listed once. -/
theorem after_eq (ops : List Operation) :
    (ReportForest.after ops).Aged ∧ after ops = ofForest (ReportForest.after ops)
      ∧ (after ops).IsListed := by
  obtain ⟨aged, same, listed⟩ := foldl_perform ops ReportForest.aged_empty (List.Perm.refl _)
  have shown : after ops = ofForest (ReportForest.after ops) := same
  exact ⟨aged, shown, shown ▸ listed⟩

/-! ## The search with a stack -/

variable {a : ReportArena} {p : Entry → Bool}

/-- Without pending reports the traversal ends. -/
theorem traverse_nil (a : ReportArena) (p : Entry → Bool) (result : List Nat) :
    a.traverse p [] result = .some result :=
  Part.eq_some_iff.2 (PFun.fix_stop (Part.mem_some _))

/-- One turn: a report is looked at, and its children come before the other pending ones. -/
theorem traverse_cons (a : ReportArena) (p : Entry → Bool) (id : Nat) (stack result : List Nat) :
    a.traverse p (id :: stack) result = match a.nodes[id]? with
      | none => a.traverse p stack result
      | some node =>
        a.traverse p (node.children ++ stack)
          (if p node.entry then result ++ [id] else result) := by
  -- the loop is a fixed point, which unfolds once for the id on top
  have next : a.visit p (id :: stack, result) ∈ PFun.lift (a.visit p) (id :: stack, result) :=
    Part.mem_some _
  rw [visit] at next
  cases there : a.nodes[id]? with
  | none =>
    rw [there] at next
    exact PFun.fix_fwd_eq next
  | some node =>
    rw [there] at next
    exact PFun.fix_fwd_eq next

/-- Searches from the reports of a list go on to a search from the whole list. -/
theorem traverse_append {found : Nat → List Nat} (ids : List Nat)
    (each : ∀ id ∈ ids, ∀ stack result, a.traverse p (id :: stack) result
      = a.traverse p stack (result ++ found id))
    (stack : List Nat) :
    ∀ result, a.traverse p (ids ++ stack) result
      = a.traverse p stack (result ++ ids.flatMap found) := by
  induction ids with
  | nil => exact fun result => by rw [List.flatMap_nil, List.append_nil, List.nil_append]
  | cons id ids ih =>
    intro result
    rw [List.cons_append, each id List.mem_cons_self, List.flatMap_cons, ← List.append_assoc]
    exact ih (fun other later => each other (List.mem_cons_of_mem _ later)) _

/-- By induction on the levels, of which there are enough to go down to the youngest report. -/
theorem traverse_ofForest (aged : f.Aged) (levels : Nat) :
    ∀ (depth : Nat) {id : Nat}, f.size ≤ id + levels →
    ∀ stack result, (ofForest f).traverse p (id :: stack) result = (ofForest f).traverse p stack
      (result ++ ((f.outlineWithin levels depth id).map (·.2)).filter fun i =>
        (f.get? i).any p) := by
  induction levels with
  | zero =>
    intro depth id enough stack result
    have absent : f.get? id = none := List.getElem?_eq_none enough
    rw [traverse_cons, getElem?_ofForest, absent]
    exact congrArg (traverse _ p stack) (List.append_nil result).symm
  | succ levels ih =>
    intro depth id enough stack result
    rw [traverse_cons, getElem?_ofForest, ReportForest.outlineWithin]
    cases found : f.get? id with
    | none =>
      have absent : ¬ id < f.size := Nat.not_lt.2 (List.getElem?_eq_none_iff.1 found)
      rw [if_neg absent]
      exact congrArg (traverse _ p stack) (List.append_nil result).symm
    | some e =>
      rw [if_pos (ReportForest.lt_size_of_get? found), List.map_cons, List.map_flatMap,
        List.filter_cons, List.filter_flatMap, found, Option.any_some]
      -- the report itself is listed first, then what is below its children, one after the other
      refine (traverse_append (f.children id) (fun child mem => ih (depth + 1) ?_) stack _).trans ?_
      · have younger := aged.lt_of_parent? (ReportForest.mem_children.1 mem)
        omega
      · congr 1
        split
        · rw [List.append_assoc, List.singleton_append]
        · rfl

/-- The search ends, with what the forest finds. -/
theorem find_ofForest (aged : f.Aged) (id : Nat) (p : Entry → Bool) :
    (ofForest f).find id p = .some (f.find id p) := by
  rw [find, traverse_ofForest aged f.size 0 (Nat.le_add_left _ _) [] [],
    traverse_nil, List.nil_append]
  rfl

/-! ## The drawing from report to report -/

/-- No lines are drawn for a report that is not there. -/
theorem lines_absent {lines : Nat → List String} (draws : (ofForest f).Draws lines) {id : Nat}
    (absent : f.get? id = none) : lines id = [] := by
  rw [draws id, getElem?_ofForest, absent]
  rfl

/-- The lines of a report: its own, and those of its children as branches. -/
theorem lines_present {lines : Nat → List String} (draws : (ofForest f).Draws lines) {id : Nat}
    {e : Entry} (found : f.get? id = some e) :
    lines id = ReportForest.ownLines e.report.message
      ++ ReportForest.branches ((f.children id).map lines) := by
  rw [draws id, getElem?_ofForest, found]
  rfl

/-- By induction on the levels: what goes down from each report to its children draws what the
forest draws over enough levels. -/
theorem linesWithin_of_draws (aged : f.Aged) {lines : Nat → List String}
    (draws : (ofForest f).Draws lines) (levels : Nat) :
    ∀ {id : Nat}, f.size ≤ id + levels → f.linesWithin levels id = lines id := by
  induction levels with
  | zero => exact fun enough => (lines_absent draws (List.getElem?_eq_none enough)).symm
  | succ levels ih =>
    intro id enough
    rw [ReportForest.linesWithin]
    cases found : f.get? id with
    | none => exact (lines_absent draws found).symm
    | some e =>
      have below : (f.children id).map (f.linesWithin levels) = (f.children id).map lines := by
        -- a child is younger, so less fuel is enough for it
        refine List.map_congr_left fun child under => ih ?_
        have younger := aged.lt_of_parent? (ReportForest.mem_children.1 under)
        omega
      rw [lines_present draws found, ← below]

/-- By induction on the levels: further levels add nothing to enough of them. -/
theorem linesWithin_succ (aged : f.Aged) (levels : Nat) :
    ∀ {id : Nat}, f.size ≤ id + levels →
      f.linesWithin (levels + 1) id = f.linesWithin levels id := by
  induction levels with
  | zero =>
    intro id enough
    have absent : f.get? id = none := List.getElem?_eq_none enough
    simp only [ReportForest.linesWithin, absent]
  | succ levels ih =>
    intro id enough
    -- children are younger, so fewer levels are enough for them
    have below : (f.children id).map (f.linesWithin (levels + 1))
        = (f.children id).map (f.linesWithin levels) := by
      refine List.map_congr_left fun child under => ih ?_
      have younger := aged.lt_of_parent? (ReportForest.mem_children.1 under)
      omega
    rw [ReportForest.linesWithin, below]
    rfl

/-- There is one drawing that is made from report to report, and it is that of the forest. -/
theorem draws_iff (aged : f.Aged) {lines : Nat → List String} :
    (ofForest f).Draws lines ↔ lines = f.lines := by
  constructor
  · intro draws
    exact funext fun id => (linesWithin_of_draws aged draws f.size (Nat.le_add_left _ _)).symm
  · rintro rfl id
    have once_more : f.lines id = f.linesWithin (f.size + 1) id :=
      (linesWithin_succ aged f.size (Nat.le_add_left _ _)).symm
    rw [once_more, ReportForest.linesWithin, getElem?_ofForest]
    cases f.get? id <;> rfl

end ReportArena

end Conference
