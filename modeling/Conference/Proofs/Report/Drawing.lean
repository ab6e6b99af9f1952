import Conference.Proofs.Report.Stored

/-!
# Drawings show every report in its place

The drawing of a report is made of the drawings of its children, with another prefix before each
line on each level. In the end the lines of a report stand behind one bar for each report on the
path down to it, the root excepted: a bar that is blank if the report is the last child of its
parent, and runs on to its next sibling if not. In the first line the last bar is the branch on
which the report hangs. The drawings of all reports follow one another in the order of the outline.

A message is never empty, so each report has a first line. The prefixes hang on that, since what
comes first in the drawing of a child is taken for the first line of the child.
-/

namespace Conference.ReportForest

variable {f : ReportForest} {id : Nat}

/-! ## Paths -/

/-- The reports from a root down to a report. -/
inductive Path (f : ReportForest) : List Nat → Nat → Prop where
  | root {id : Nat} : id ∈ f.roots → Path f [id] id
  | child {path : List Nat} {parent id : Nat} : Path f path parent → id ∈ f.children parent →
    Path f (path ++ [id]) id

/-- The last `steps` reports on the path down to a report. -/
def pathWithin (f : ReportForest) : (steps id : Nat) → List Nat
  | 0, _ => []
  | steps + 1, id => (f.parent? id).elim [] (pathWithin f steps) ++ [id]

def path (f : ReportForest) (id : Nat) : List Nat := f.pathWithin f.size id

/-- The path down to the parent of a report. -/
def stem (f : ReportForest) (id : Nat) : List Nat := (f.parent? id).elim [] f.path

/-- By induction on the steps: parents are older, so there are no more reports on the path than
steps. -/
theorem pathWithin_eq (aged : f.Aged) (steps : Nat) :
    ∀ {steps' id : Nat}, id < steps → id < steps' →
      f.pathWithin steps id = f.pathWithin steps' id := by
  induction steps with
  | zero => exact fun less => absurd less (Nat.not_lt_zero _)
  | succ steps ih =>
    intro steps' id less less'
    obtain ⟨steps', rfl⟩ :=
      Nat.exists_eq_succ_of_ne_zero (Nat.ne_of_gt (Nat.lt_of_le_of_lt (Nat.zero_le _) less'))
    rw [pathWithin, pathWithin]
    cases link : f.parent? id with
    | none => rfl
    | some parent =>
      have older := aged.lt_of_parent? link
      exact congrArg (· ++ [id]) (ih (by omega) (by omega))

/-- The path to a report ends with it. -/
theorem path_eq (aged : f.Aged) (below : id < f.size) : f.path id = f.stem id ++ [id] := by
  rw [path, pathWithin_eq aged f.size below (Nat.lt_succ_of_lt below), pathWithin]
  rfl

/-- Children hang from the path to their parent. -/
theorem stem_of_child {parent : Nat} (under : id ∈ f.children parent) :
    f.stem id = f.path parent := by
  rw [stem, mem_children.1 under]
  rfl

/-- Roots hang from nothing. -/
theorem stem_of_root (top : id ∈ f.roots) : f.stem id = [] := by
  rw [stem, parent?_of_mem_withParent top]
  rfl

/-- There is one path down to each report. -/
theorem path_iff (aged : f.Aged) {path : List Nat} :
    f.Path path id ↔ id < f.size ∧ path = f.path id := by
  constructor
  · intro leads
    induction leads with
    | root top =>
      have below := lt_size_of_mem_withParent top
      refine ⟨below, ?_⟩
      rw [path_eq aged below, stem_of_root top, List.nil_append]
    | child _ under ih =>
      have below := lt_size_of_mem_withParent under
      refine ⟨below, ?_⟩
      rw [path_eq aged below, stem_of_child under, ih.2]
  · rintro ⟨below, rfl⟩
    -- by strong induction, since the parent is older
    induction id using Nat.strongRecOn with
    | ind id ih =>
      rw [path_eq aged below]
      cases link : f.parent? id with
      | none =>
        have top : id ∈ f.roots := by
          obtain ⟨e, found⟩ := exists_get? below
          rw [parent?, found] at link
          exact mem_withParent.2 ⟨e, found, link⟩
        rw [stem_of_root top]
        exact .root top
      | some parent =>
        have under : id ∈ f.children parent := mem_children.2 link
        have older := aged.lt_of_parent? link
        rw [stem_of_child under]
        exact .child (ih parent older (Nat.lt_trans older below)) under

/-! ## The drawing of one report -/

/-- No sibling comes after the report. -/
def isLast (f : ReportForest) (id : Nat) : Bool := (f.withParent (f.parent? id)).getLast? == some id

/-- What stands before the lines below a report: the way to its next sibling, if there is one. -/
def bar (f : ReportForest) (id : Nat) : String := if f.isLast id then "   " else "  |"

def bars (f : ReportForest) (path : List Nat) : String := String.join (path.map f.bar)

/-- The lines of a message at the end of a path. The root has no bar, and the first line has the
branch in place of the last bar. -/
def drawing (f : ReportForest) (path : List Nat) (message : String) : List String :=
  match Text.lines message with
  | [] => []
  | first :: others =>
    (f.bars path.tail.dropLast ++ (if path.tail.isEmpty then "" else "  +") ++ "-" ++ first)
      :: others.map (f.bars path.tail ++ " " ++ ·)

theorem bars_cons (path : List Nat) : f.bars (id :: path) = f.bar id ++ f.bars path := by
  rw [bars, List.map_cons, String.join_cons]
  rfl

theorem bars_nil (f : ReportForest) : f.bars [] = "" := rfl

/-- At a root there is nothing to indent. -/
theorem drawing_root (f : ReportForest) (id : Nat) (message : String) :
    f.drawing [id] message = ownLines message := by
  unfold drawing ownLines
  cases Text.lines message with
  | nil => rfl
  | cons first others => simp [bars_nil]

/-- A message that is not empty has a line. -/
theorem ownLines_ne_nil {message : String} (full : message ≠ "") : ownLines message ≠ [] := by
  unfold ownLines
  obtain ⟨first, others, split⟩ := List.exists_cons_of_ne_nil (Text.lines_ne_nil full)
  rw [split]
  exact List.cons_ne_nil _ _

/-- A child that hangs on its parent. -/
theorem branch_ownLines (f : ReportForest) (parent id : Nat) (message : String) :
    branch (f.isLast id) (ownLines message) = f.drawing [parent, id] message := by
  unfold drawing ownLines
  cases Text.lines message with
  | nil => rfl
  | cons first others => simp [branch, bars_cons, bars_nil, bar, ← String.append_assoc]

/-- What is below a child has the bar of the child in front. -/
theorem map_bar_drawing (f : ReportForest) (parent id next : Nat) (path : List Nat)
    (message : String) :
    (f.drawing (id :: next :: path) message).map (f.bar id ++ ·) = f.drawing
      (parent :: id :: next :: path) message := by
  unfold drawing
  cases Text.lines message with
  | nil => rfl
  | cons first others => simp [bars_cons, String.append_assoc]

/-- The lines behind are indented under the branch. -/
theorem branch_append (last : Bool) {lines : List String} (full : lines ≠ [])
    (others : List String) :
    branch last (lines ++ others) = branch last lines
      ++ others.map ((if last then "   " else "  |") ++ ·) := by
  obtain ⟨first, rest, rfl⟩ := List.exists_cons_of_ne_nil full
  rw [List.cons_append, branch, branch, List.map_append, List.cons_append]

/-- By induction on the children: only the last one is drawn as that. -/
theorem branches_map (g : Nat → List String) (ids : List Nat) (different : ids.Nodup) :
    branches (ids.map g) = ids.flatMap fun id => branch (ids.getLast? == some id) (g id) := by
  induction ids with
  | nil => rfl
  | cons id ids ih =>
    obtain ⟨new, different'⟩ := List.nodup_cons.1 different
    cases ids with
    | nil => simp [branches]
    | cons next ids =>
      -- the same report does not come again, so another one is the last
      have before : ((id :: next :: ids).getLast? == some id) = false := by
        rw [beq_eq_false_iff_ne, List.getLast?_cons_cons]
        exact fun same => new (List.mem_of_getLast? same)
      show branch false (g id) ++ branches ((next :: ids).map g)
        = branch ((id :: next :: ids).getLast? == some id) (g id)
          ++ (next :: ids).flatMap fun i => branch ((id :: next :: ids).getLast? == some i) (g i)
      rw [before, ih different', List.getLast?_cons_cons]

/-- A child is the last one if it comes last among the children of its parent. -/
theorem isLast_of_child {parent : Nat} (under : id ∈ f.children parent) :
    f.isLast id = ((f.children parent).getLast? == some id) := by
  rw [isLast, mem_children.1 under]
  rfl

/-! ## All drawings together -/

/-- The reports at or below a report in pre-order, each with the path down to it, over at most
`levels` levels. -/
def pathsWithin (f : ReportForest) : (levels id : Nat) → List (List Nat × Nat)
  | 0, _ => []
  | levels + 1, id =>
    if id < f.size then
      ([id], id) :: (f.children id).flatMap fun child =>
        (pathsWithin f levels child).map fun p => (id :: p.1, p.2)
    else []

/-- With the path down to the parent in front, these are the reports of the outline with their
paths. -/
theorem map_pathsWithin (aged : f.Aged) (levels : Nat) : ∀ depth id : Nat,
    (f.pathsWithin levels id).map (fun p => (f.stem id ++ p.1, p.2))
      = (f.outlineWithin levels depth id).map fun p => (f.path p.2, p.2) := by
  induction levels with
  | zero => exact fun _ _ => rfl
  | succ levels ih =>
    intro depth id
    rw [pathsWithin, outlineWithin]
    split
    · rename_i below
      rw [List.map_cons, List.map_cons, path_eq aged below, List.map_flatMap, List.map_flatMap]
      refine congrArg _ (List.flatMap_congr fun child under => ?_)
      -- the stem of a child is the path to its parent
      rw [← ih (depth + 1) child, stem_of_child under, path_eq aged below, List.map_map]
      refine List.map_congr_left fun p _ => ?_
      rw [List.append_assoc]
      rfl
    · rfl

/-- Paths begin with the top. -/
theorem exists_cons_of_mem_pathsWithin (levels : Nat) {p : List Nat × Nat}
    (mem : p ∈ f.pathsWithin levels id) :
    ∃ path, p.1 = id :: path := by
  cases levels with
  | zero => cases mem
  | succ levels =>
    rw [pathsWithin] at mem
    split at mem
    · rcases List.mem_cons.1 mem with rfl | deeper
      · exact ⟨_, rfl⟩
      · obtain ⟨child, -, mem'⟩ := List.mem_flatMap.1 deeper
        obtain ⟨q, -, rfl⟩ := List.mem_map.1 mem'
        exact ⟨_, rfl⟩
    · cases mem

/-- The drawings of the reports at or below one that hangs on its parent. -/
theorem branch_flatMap_drawing (parent : Nat) (levels : Nat) :
    branch (f.isLast id) ((f.pathsWithin levels id).flatMap fun p => f.drawing p.1 (f.text p.2))
      = (f.pathsWithin levels id).flatMap fun p => f.drawing (parent :: p.1) (f.text p.2) := by
  cases levels with
  | zero => rfl
  | succ levels =>
    rw [pathsWithin]
    split
    · rename_i below
      obtain ⟨e, found⟩ := exists_get? below
      -- the first line of the child is one of its own message, so the branch goes before that
      have full : f.text id ≠ "" := by
        rw [text, found]
        exact e.report.message_ne_empty
      rw [List.flatMap_cons, List.flatMap_cons, drawing_root,
        branch_append _ (ownLines_ne_nil full), branch_ownLines f parent, List.map_flatMap]
      refine congrArg _ (List.flatMap_congr fun p deeper => ?_)
      obtain ⟨child, -, mem⟩ := List.mem_flatMap.1 deeper
      obtain ⟨q, mem', rfl⟩ := List.mem_map.1 mem
      obtain ⟨path, starts⟩ := exists_cons_of_mem_pathsWithin levels mem'
      rw [starts]
      exact map_bar_drawing f parent id child path _
    · rfl

/-- By induction on the levels: the branches of the children are the drawings of what is below. -/
theorem linesWithin_eq (levels : Nat) : ∀ id : Nat,
    f.linesWithin levels id = (f.pathsWithin levels id).flatMap fun p =>
      f.drawing p.1 (f.text p.2) := by
  induction levels with
  | zero => exact fun _ => rfl
  | succ levels ih =>
    intro id
    rw [linesWithin, pathsWithin]
    cases found : f.get? id with
    | none =>
      have absent : ¬ id < f.size := Nat.not_lt.2 (List.getElem?_eq_none_iff.1 found)
      rw [if_neg absent]
      rfl
    | some e =>
      have own : f.text id = e.report.message := by rw [text, found]
      rw [if_pos (lt_size_of_get? found), List.flatMap_cons, drawing_root, own, List.flatMap_assoc]
      -- a branch indents the drawings below it by its own bar
      refine congrArg _ ((branches_map _ _ (f.withParent_nodup _)).trans
        (List.flatMap_congr fun child under => ?_))
      rw [ih child, List.flatMap_map, ← branch_flatMap_drawing id levels, isLast_of_child under]
      rfl

/-- The lines of a root are the drawings of the reports in its outline. -/
theorem lines_of_root (aged : f.Aged) (top : id ∈ f.roots) :
    f.lines id = (f.outline id).flatMap fun p => f.drawing (f.path p.2) (f.text p.2) := by
  have paths := map_pathsWithin aged f.size 0 id
  rw [stem_of_root top] at paths
  have same : f.pathsWithin f.size id = (f.outline id).map fun p => (f.path p.2, p.2) :=
    (List.map_id' _).symm.trans paths
  rw [lines, linesWithin_eq, same, List.flatMap_map]

/-- Each root has a line, since its message is not empty. -/
theorem lines_ne_nil_of_root (top : id ∈ f.roots) : f.lines id ≠ [] := by
  obtain ⟨e, found, -⟩ := mem_withParent.1 top
  have some_levels : f.size ≠ 0 :=
    Nat.ne_of_gt (Nat.lt_of_le_of_lt (Nat.zero_le _) (lt_size_of_get? found))
  obtain ⟨levels, more⟩ := Nat.exists_eq_succ_of_ne_zero some_levels
  rw [lines, more, linesWithin, found]
  exact List.append_ne_nil_of_left_ne_nil (ownLines_ne_nil e.report.message_ne_empty) _

/-- The rendering consists of the drawings of all reports, in the order of the outline. -/
theorem renderAll_eq (aged : f.Aged) :
    f.renderAll = "\n".intercalate (f.outlineAll.flatMap fun p =>
      f.drawing (f.path p.2) (f.text p.2)) := by
  have drawings : f.roots.map f.render = (f.roots.map f.lines).map "\n".intercalate := by
    rw [List.map_map]
    rfl
  have full : ∀ group ∈ f.roots.map f.lines, group ≠ [] := by
    intro group mem
    obtain ⟨root, top, rfl⟩ := List.mem_map.1 mem
    exact lines_ne_nil_of_root top
  rw [renderAll, drawings, Text.intercalate_map_intercalate full, ← List.flatMap_def,
    outlineAll, List.flatMap_assoc]
  exact congrArg _ (List.flatMap_congr fun root top => lines_of_root aged top)

/-- A search for everything finds the whole subtree. -/
theorem find_all (id : Nat) : f.find id (fun _ => true) = f.subtree id := by
  refine List.filter_eq_self.2 fun other mem => ?_
  obtain ⟨e, found⟩ := exists_get? (above_of_mem_outlineWithin f.size mem).2
  rw [found]
  rfl

/-- Whatever operations have made the forest: the lists of roots and of children hold each report
once, and so does the outline, where a search for everything finds the reports of each root in their
order. The drawing, which is that of the recursion from each report to its children, consists of the
lines of all reports in the order of the outline. Each of these stands behind the bars of the
reports on its one path down from a root. -/
theorem every_report_is_drawn (ops : List Operation) :
    let f := after ops
    let a := ReportArena.after ops
    a = .ofForest f ∧ a.listed.Perm (List.range f.size)
    ∧ (f.outlineAll.map (·.2)).Perm (List.range f.size)
    ∧ (∀ path id, f.Path path id ↔ id < f.size ∧ path = f.path id)
    ∧ (∀ lines, a.Draws lines ↔ lines = f.lines)
    ∧ f.renderAll = "\n".intercalate (f.outlineAll.flatMap fun p =>
      f.drawing (f.path p.2) (f.text p.2))
    ∧ (∀ id p, a.find id p = .some (f.find id p))
    ∧ (a.roots.flatMap fun root => f.find root fun _ => true) = f.outlineAll.map (·.2) := by
  intro f a
  obtain ⟨aged, same, listed⟩ := ReportArena.after_eq ops
  have shown : a = .ofForest f := same
  -- the arena is the forest, stored
  have size : a.nodes.length = f.size := by rw [shown, ReportArena.length_ofForest]
  refine ⟨shown, size ▸ listed, outlineAll_perm aged, fun _ _ => path_iff aged, fun _ =>
    ?_, renderAll_eq aged, fun id p => ?_, ?_⟩
  · rw [shown]
    exact ReportArena.draws_iff aged
  · rw [shown]
    exact ReportArena.find_ofForest aged id p
  · rw [shown, outlineAll, List.map_flatMap]
    exact List.flatMap_congr fun root _ => find_all root

/-- A message of two lines below a branch that goes on. The last report names a parent that does not
exist. -/
example :
    (after [.addRoot .findingAvailableResource, .addChild 0 (.checkingResource ⟨"desk"⟩),
      .addChild 1 (.resourceNotAvailable ⟨"desk"⟩ 0), .addChild 0 (.checkingResource ⟨"hall"⟩),
      .addChild 9 (.resourceNotFound ⟨"hall"⟩)]).renderAll
      = "\n".intercalate
          ["-Finding available resources.", "  +-Checking resource desk.",
            "  |  +-Resource desk is not available for the requested slot.",
            "  |    Maximum future is 1970-01-01 00:00.", "  +-Checking resource hall.",
            "-Resource hall was not found."] := by
  decide +kernel

end Conference.ReportForest
