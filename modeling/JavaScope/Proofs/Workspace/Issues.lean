import JavaScope.Proofs.Visited
import JavaScope.Proofs.Workspace.Links
import Mathlib.Data.List.TakeWhile

/-!
# Syntax issues

The flags of a tree lead from the root to every error in it, so the walk along them misses no error,
and it stays out of the errors that it reports. The issues are therefore those of the outermost
errors, and there are none exactly where the tree has no error. The quoted text of an error begins
with a character that is not blank, and as every line break is blank, so does its first line.
-/

namespace JavaScope

/-! ## Quoted texts -/

namespace Text

variable {text : List Char}

theorem strip_eq_nil (blank : isBlankText text = true) : strip text = [] := by
  have all : ∀ c ∈ text, isBlank c = true := List.all_eq_true.1 blank
  simp [strip, List.dropWhile_eq_nil_iff.2 all]

/-- A text that is not blank, without its outer blanks, begins with a character that is not blank. -/
theorem exists_strip_eq_cons (some : isBlankText text = false) :
    ∃ c rest, strip text = c :: rest ∧ isBlank c = false := by
  cases inner : text.dropWhile isBlank with
  | nil =>
    have blank := List.all_eq_true.2 (List.dropWhile_eq_nil_iff.1 inner)
    rw [isBlankText, blank] at some
    cases some
  | cons c rest =>
    have first : isBlank c = false := by
      have stops := List.head_dropWhile_not isBlank (l := text) (by simp [inner])
      simpa [inner] using stops
    have kept : ([c] : List Char).dropWhile isBlank = [c] := by simp [first]
    rw [strip, inner, List.reverse_cons, List.dropWhile_append, kept]
    split
    · exact ⟨c, [], rfl, first⟩
    · exact ⟨c, (rest.reverse.dropWhile isBlank).reverse, by simp, first⟩

theorem firstLine_cons {c : Char} (first : isBlank c = false) (rest : List Char) :
    firstLine (c :: rest) = c :: firstLine rest := by
  have goesOn : isLineBreak c = false := by
    rw [← Bool.not_eq_true]
    intro ends
    rw [isBlank_of_isLineBreak ends] at first
    cases first
  simp [firstLine, goesOn]

end Text

/-- The excerpt of a blank text is empty. -/
theorem isEmpty_excerpt {text : String} {width : Nat} (blank : Text.isBlankText text.toList = true) :
    (excerpt text width).isEmpty = true := by
  simp [excerpt, Text.strip_eq_nil blank, Text.firstLine]

/-- The excerpt of any other text is not blank and lies on one line. -/
theorem excerpt_shows {text : String} {width : Nat} (room : 0 < width)
    (some : Text.isBlankText text.toList = false) :
    Text.isBlankText (excerpt text width).toList = false ∧
      ∀ c ∈ (excerpt text width).toList, Text.isLineBreak c = false := by
  obtain ⟨c, rest, stripped, first⟩ := Text.exists_strip_eq_cons some
  constructor
  · obtain ⟨w, rfl⟩ := Nat.exists_eq_add_of_lt room
    simp [excerpt, stripped, Text.firstLine_cons first, Text.isBlankText, first]
  · intro ch member
    rw [excerpt, String.toList_ofList] at member
    exact Text.isLineBreak_of_mem_firstLine (List.mem_of_mem_take member)

/-! ## The errors of a tree -/

namespace Tree

/-- The flag of every node says whether it or a node below is an error. -/
def HasExactFlags (t : Tree) : Prop :=
  ∀ n ∈ t.root.preorder, n.hasError = true ↔ ∃ m ∈ n.preorder, m.isErrorNode = true

instance (t : Tree) : Decidable t.HasExactFlags :=
  inferInstanceAs (Decidable (∀ n ∈ t.root.preorder, _ ↔ ∃ m ∈ n.preorder, _))

/-- Some node is an error. -/
def HasErrors (t : Tree) : Prop :=
  ∃ n ∈ t.root.preorder, n.isErrorNode = true

instance (t : Tree) : Decidable t.HasErrors :=
  inferInstanceAs (Decidable (∃ n ∈ t.root.preorder, _))

/-- The errors with no error above them, in the order of the text. -/
def outermostErrors (t : Tree) : List Node :=
  t.root.preorder.filter fun n => decide (n.IsOutermost fun m => m.isErrorNode = true)

variable {t : Tree}

theorem outermostErrors_eq_nil : t.outermostErrors = [] ↔ ¬ t.HasErrors := by
  simp only [outermostErrors, List.filter_eq_nil_iff, decide_eq_true_eq]
  constructor
  · rintro none ⟨n, hn, error⟩
    obtain ⟨top, above, outermost⟩ :
        ∃ top ∈ n.climb, top.IsOutermost fun m => m.isErrorNode = true :=
      Node.exists_isOutermost List.mem_cons_self error
    exact none top (mem_of_climb hn above) outermost
  · intro none n hn outermost
    exact none ⟨n, hn, outermost.1⟩

/-- The walk along the flags lists the outermost errors. -/
theorem errorNodes_root (flags : t.HasExactFlags) (sound : t.root.isErrorNode = false) :
    t.root.errorNodes = t.outermostErrors := by
  rw [Node.errorNodes_eq_visited sound]
  apply Node.filter_visited_eq_outermost (Node.mem_preorder_self t.root)
  · intro n hn m above _
    exact mem_of_climb hn (List.mem_cons_of_mem n above)
  · intro n _ _
    rfl
  · intro n error m hm below
    have flagged : m.hasError = true := (flags m hm).2 ⟨n, below, error⟩
    simp [flagged]

theorem top_eq_root {n : Node} (h : n ∈ t.root.preorder) : n.top = t.root := by
  obtain ⟨before, split⟩ := Node.chain_suffix_of_mem_preorder h
  cases before with
  | nil =>
    obtain ⟨tree, ancestors⟩ := n
    obtain ⟨rfl, rfl⟩ := List.cons.inj split
    rfl
  | cons first before =>
    have ups : n.ancestors = before ++ [t] := (List.cons.inj split).2.symm
    simp [Node.top, ups]

end Tree

/-! ## Issues -/

namespace ParsedUnit

variable {u : ParsedUnit} {n : Node}

/-- The issue is that of the error: it lies where the node lies, and its message names what is
missing or quotes the text there, unless that is blank. -/
structure Reports (u : ParsedUnit) (n : Node) (issue : SyntaxIssue) : Prop where
  location : u.locate n = .ok issue.location
  missing : n.isMissing = true → issue.message = "Missing '" ++ n.kind.name ++ "'"
  atEnd : n.isMissing = false → Text.isBlankText (u.source.textAt issue.location).toList = true →
    issue.message = "Syntax error at end of input"
  quoted : n.isMissing = false → Text.isBlankText (u.source.textAt issue.location).toList = false →
    ∃ snippet, issue.message = "Syntax error at '" ++ snippet ++ "'" ∧
      snippet = excerpt (u.source.textAt issue.location) 40 ∧
      Text.isBlankText snippet.toList = false ∧ ∀ c ∈ snippet.toList, Text.isLineBreak c = false

theorem reports_of_issueAt {issue : SyntaxIssue} (h : u.issueAt n = .ok issue) :
    u.Reports n issue := by
  rw [issueAt] at h
  cases located : u.locate n with
  | error f =>
    rw [located] at h
    cases h
  | ok location =>
    rw [located] at h
    cases h
    refine ⟨located, ?_, ?_, ?_⟩
    · intro missing
      simp [issueMessage, missing]
    · intro present blank
      simp [issueMessage, present, isEmpty_excerpt blank]
    · intro present some
      obtain ⟨shown, line⟩ := excerpt_shows (by decide : 0 < 40) some
      refine ⟨_, ?_, rfl, shown, line⟩
      have quoted : (excerpt (u.source.textAt location) 40).isEmpty = false := by
        rw [← Bool.not_eq_true]
        intro empty
        rw [String.isEmpty_iff] at empty
        simp [empty, Text.isBlankText] at shown
      simp [issueMessage, present, quoted]

/-- The tree of a fragment may have no error, unless it is one of statements and errors are
tolerated there. -/
def IsStrict (u : ParsedUnit) : Prop :=
  u.mode = .typeBody ∨ u.mode = .statements ∧ u.toleratesErrors = false

theorem hasError_root (strict : u.IsStrict) (fits : u.isWellFormed = true) :
    u.tree.root.hasError = false := by
  unfold isWellFormed Document.isWellFormedRoot at fits
  cases located : u.root? with
  | none => simp [located] at fits
  | some root =>
    have top := Tree.top_eq_root (mem_preorder_of_root? located)
    rcases strict with mode | ⟨mode, tolerates⟩
    · simp only [located, mode, Document.isTypeBodyRoot, top, Bool.and_eq_true,
        Bool.not_eq_true'] at fits
      exact fits.2
    · simp only [located, mode, tolerates, Document.isStatementsRoot, top, Bool.false_or,
        Bool.and_eq_true, Bool.not_eq_true'] at fits
      exact fits.2

theorem not_hasErrors (flags : u.tree.HasExactFlags) (strict : u.IsStrict)
    (fits : u.isWellFormed = true) : ¬ u.tree.HasErrors := by
  intro errors
  have flagged := (flags u.tree.root (Node.mem_preorder_self u.tree.root)).2 errors
  rw [hasError_root strict fits] at flagged
  cases flagged

/-- The issues of a unit are those of the outermost errors, in the order of the text. -/
theorem syntaxIssues_reports (ordered : u.tree.IsOrdered) (flags : u.tree.HasExactFlags)
    (sound : u.tree.root.isErrorNode = false) : ∃ issues, u.syntaxIssues = .ok issues ∧
      List.Forall₂ u.Reports u.tree.outermostErrors issues := by
  obtain ⟨issues, listed, -⟩ := syntaxIssues_isOk ordered
  refine ⟨issues, listed, ?_⟩
  rw [syntaxIssues, Tree.errorNodes_root flags sound] at listed
  exact (forall₂_of_mapM listed).imp fun n issue => reports_of_issueAt

/-- The issues that a unit tells a context are its own. -/
theorem issues_of_attachment {issues : List SyntaxIssue} {a : Attachment}
    (listed : u.syntaxIssues = .ok issues) (learned : u.attachment = .ok a) : a.issues = issues := by
  cases located : u.root? with
  | none =>
    rw [attachment, located] at learned
    cases learned
  | some root =>
    rw [attachment_eq located, listed] at learned
    cases scope : u.locate root with
    | error f =>
      rw [scope] at learned
      cases learned
    | ok l =>
      rw [scope] at learned
      cases learned
      rfl

end ParsedUnit

namespace Workspace

/-! ## Bound contexts -/

variable {u : ParsedUnit} {w : Workspace} {c : ContextId} {entry : ContextEntry}

theorem outcome_ensureWellFormed (hc : w.context? c = some entry) :
    outcome (ensureWellFormed c) w = (if entry.issues.isEmpty then .ok ⟨⟩
      else .error (.syntaxIssues entry.source.name (entry.issues.map SyntaxIssue.note)), w) := by
  rw [ensureWellFormed, outcome_bind_of_ok (outcome_context_of_some hc)]
  cases entry.issues.isEmpty with
  | true => rfl
  | false => rfl

/-- The context has these issues, and is refused as malformed exactly where the tree of the unit has
an error; where the mode is strict, it has none. -/
structure Judges (w : Workspace) (c : ContextId) (entry : ContextEntry) (u : ParsedUnit)
    (issues : List SyntaxIssue) : Prop where
  known : entry.issues = issues
  malformed : (!entry.issues.isEmpty) = true ↔ u.tree.HasErrors
  raises : u.tree.HasErrors → outcome (ensureWellFormed c) w =
    (.error (.syntaxIssues entry.source.name (issues.map SyntaxIssue.note)), w)
  passes : ¬ u.tree.HasErrors → outcome (ensureWellFormed c) w = (.ok ⟨⟩, w)
  strict : u.IsStrict → ¬ u.tree.HasErrors

theorem Sound.judges (sound : w.Sound) {id : UnitId} {unitEntry : UnitEntry}
    (hc : w.context? c = some entry) (bound : entry.unit = some id)
    (hu : w.unit? id = some unitEntry) (flags : unitEntry.parsed.tree.HasExactFlags)
    {issues : List SyntaxIssue} (listed : unitEntry.parsed.syntaxIssues = .ok issues)
    (reports : List.Forall₂ unitEntry.parsed.Reports unitEntry.parsed.tree.outermostErrors issues) :
    w.Judges c entry unitEntry.parsed issues := by
  obtain ⟨unitEntry', a, hu', fits, learned, -, known⟩ := sound.learned c entry id hc bound
  cases hu.symm.trans hu'
  have own : entry.issues = issues := by
    rw [known]
    exact ParsedUnit.issues_of_attachment listed learned
  have empty : issues.isEmpty = true ↔ ¬ unitEntry.parsed.tree.HasErrors := by
    rw [← Tree.outermostErrors_eq_nil, List.isEmpty_iff]
    constructor
    · rintro rfl
      exact List.forall₂_nil_right_iff.1 reports
    · intro none
      rw [none] at reports
      exact List.forall₂_nil_left_iff.1 reports
  have checks := outcome_ensureWellFormed hc
  rw [own] at checks
  refine ⟨own, ?_, ?_, ?_, fun strict => unitEntry.parsed.not_hasErrors flags strict fits⟩
  · rw [own, Bool.not_eq_true', ← Bool.not_eq_true, empty, not_not]
  · intro errors
    rw [checks, if_neg fun none => empty.1 none errors]
  · intro errorless
    rw [checks, if_pos (empty.2 errorless)]

/-- The syntax issues of a unit can always be listed. They are those of the outermost errors, in the
order of the text, each at the place of its node and with a message that quotes a line which is not
blank, unless something is missing there or the text is blank. A context that is bound to the unit has
these issues, and is malformed exactly where the tree has an error, which in the strict modes it has
not. -/
theorem syntaxIssues_complete (ordered : u.tree.IsOrdered) (flags : u.tree.HasExactFlags)
    (sound : u.tree.root.isErrorNode = false) :
    ∃ issues, u.syntaxIssues = .ok issues ∧
      List.Forall₂ u.Reports u.tree.outermostErrors issues ∧
      ∀ calls c entry id unitEntry, (empty.after calls).context? c = some entry →
        entry.unit = some id → (empty.after calls).unit? id = some unitEntry →
          unitEntry.parsed = u → (empty.after calls).Judges c entry u issues := by
  obtain ⟨issues, listed, reports⟩ := ParsedUnit.syntaxIssues_reports ordered flags sound
  refine ⟨issues, listed, reports, ?_⟩
  rintro calls c entry id unitEntry hc bound hu rfl
  exact (after_sound empty_sound calls).judges hc bound hu flags listed reports

/-- A class with a text that fits nowhere, which holds another such text, and with a field that lacks
its semicolon. -/
def faultySource : Source :=
  ⟨"faulty", "class A \x7b int x; ?? int y \x7d"⟩

/-- The tree of the faulty class. -/
def faultyGrammar : Grammar := fun _ =>
  .node ⟨.program, 0, 27, true, false, true, none⟩ [
    .node ⟨.classDeclaration, 0, 27, true, false, true, none⟩ [
      .token "class" 0, .named .identifier (some .name) 6 7 [],
      .node ⟨.classBody, 8, 27, true, false, true, some .body⟩ [
        .token "\x7b" 8, memberTree .fieldDeclaration 10,
        .node ⟨.error, 17, 19, true, false, true, none⟩ [
          .node ⟨.error, 18, 19, true, false, true, none⟩ []],
        .node ⟨.fieldDeclaration, 20, 25, true, false, true, none⟩ [
          .named .integralType (some .type) 20 23 [.token "int" 20],
          .named .variableDeclarator (some .declarator) 24 25 [
            .named .identifier (some .name) 24 25 []],
          .node ⟨.other ";", 25, 25, false, true, true, none⟩ []],
        .token "\x7d" 26]]]

/-- The faulty class as a whole file. -/
def faultyUnit : ParsedUnit :=
  .under faultyGrammar filesBeforeMembers faultySource .compilationUnit

/-- The faulty class is parsed and then bound. -/
def faultyRun : List Call :=
  [.createContext faultySource,
    .parse faultyGrammar filesBeforeMembers faultySource .compilationUnit, .bind ⟨0⟩ ⟨0⟩]

theorem syntaxIssues_complete_faulty :
    faultyUnit.tree.IsOrdered ∧ faultyUnit.tree.HasExactFlags ∧
      faultyUnit.tree.root.isErrorNode = false ∧ faultyUnit.tree.HasErrors ∧
      ∃ issues entry, faultyUnit.syntaxIssues = .ok issues ∧
        List.Forall₂ faultyUnit.Reports faultyUnit.tree.outermostErrors issues ∧
        (empty.after faultyRun).context? ⟨0⟩ = some entry ∧
        (empty.after faultyRun).Judges ⟨0⟩ entry faultyUnit issues := by
  have ordered : faultyUnit.tree.IsOrdered := by decide
  have flags : faultyUnit.tree.HasExactFlags := by decide
  have errors : faultyUnit.tree.HasErrors := by decide
  have bound : ((empty.after faultyRun).context? ⟨0⟩).any (·.unit == some ⟨0⟩) = true := by
    decide
  obtain ⟨entry, hc, bound⟩ := (Option.any_eq_true _ _).1 bound
  have parsed : ((empty.after faultyRun).unit? ⟨0⟩).map (·.parsed) = some faultyUnit := rfl
  obtain ⟨unitEntry, hu, same⟩ := Option.map_eq_some_iff.1 parsed
  obtain ⟨issues, listed, reports, judges⟩ := syntaxIssues_complete ordered flags rfl
  exact ⟨ordered, flags, rfl, errors, issues, entry, listed, reports, hc,
    judges faultyRun ⟨0⟩ entry ⟨0⟩ unitEntry hc (beq_iff_eq.1 bound) hu same⟩

example : faultyUnit.syntaxIssues.map (·.map fun issue => (issue.message, issue.location.start.offset)) =
    .ok [("Syntax error at '??'", 17), ("Missing ';'", 25)] := by
  decide

end Workspace

end JavaScope
