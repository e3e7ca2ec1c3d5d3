import JavaScope.Source.Basic
import Mathlib.Data.List.Basic
import Mathlib.Data.Prod.Lex

/-!
# Lines and columns

A text is read from left to right: a line feed is a line break, a carriage return is one, and both
together are one break. The line of an offset is the number of breaks that end at or before it, and
its column is the distance to the end of the last of them. So an offset between the two characters
of one break is still on the line that the break ends.

The table of lines holds the ends of these breaks, although it is built one character at a time, and
the search in it counts the ones up to an offset.
-/

namespace JavaScope

namespace Text

/-! ## Line breaks -/

/-- The offsets at which the line breaks of a text end. The text is read from left to right, its
first character at the offset `start`. -/
def breakEnds (start : Nat) : List Char → List Nat
  | [] => []
  | '\r' :: '\n' :: text => (start + 2) :: breakEnds (start + 2) text
  | c :: text =>
    if c = '\n' || c = '\r' then (start + 1) :: breakEnds (start + 1) text
    else breakEnds (start + 1) text

/-- A line break ends with the character at this place: a line feed, or a carriage return that no
line feed follows. -/
def BreakEndsWith (text : List Char) (i : Nat) : Prop :=
  text[i]? = some '\n' ∨ text[i]? = some '\r' ∧ text[i + 1]? ≠ some '\n'

variable {start e i : Nat} {c : Char} {text : List Char}

theorem lt_of_mem_breakEnds (h : e ∈ breakEnds start text) : start < e := by
  fun_induction breakEnds start text with
  | case1 => simp at h
  | case2 start text ih =>
    rcases List.mem_cons.1 h with rfl | h
    · omega
    · have := ih h
      omega
  | case3 start c text _ isBreak ih =>
    rcases List.mem_cons.1 h with rfl | h
    · omega
    · have := ih h
      omega
  | case4 start c text _ noBreak ih =>
    have := ih h
    omega

theorem pairwise_breakEnds (start : Nat) (text : List Char) :
    (breakEnds start text).Pairwise (· < ·) := by
  fun_induction breakEnds start text with
  | case1 => exact .nil
  | case2 start text ih => exact .cons (fun e he => lt_of_mem_breakEnds he) ih
  | case3 start c text _ isBreak ih => exact .cons (fun e he => lt_of_mem_breakEnds he) ih
  | case4 start c text _ noBreak ih => exact ih

theorem not_mem_breakEnds (h : e ≤ start) : e ∉ breakEnds start text := by
  intro member
  have := lt_of_mem_breakEnds member
  omega

/-- Reading from left to right finds the breaks that the characters around an offset show. -/
theorem mem_breakEnds_iff : start + i + 1 ∈ breakEnds start text ↔ BreakEndsWith text i := by
  fun_induction breakEnds start text generalizing i with
  | case1 => simp [BreakEndsWith]
  | case2 start text ih =>
    match i with
    | 0 =>
      have later : start + 1 ∉ breakEnds (start + 2) text := not_mem_breakEnds (by omega)
      simp [BreakEndsWith, later]
    | 1 => simp [BreakEndsWith]
    | i + 2 =>
      have shift : start + (i + 2) + 1 = start + 2 + i + 1 := by omega
      have other : ¬ start + 2 + i + 1 = start + 2 := by omega
      rw [shift, List.mem_cons, or_iff_right other, ih]
      simp [BreakEndsWith]
  | case3 start c text alone isBreak ih =>
    cases i with
    | zero =>
      have shown : BreakEndsWith (c :: text) 0 := by
        simp only [Bool.or_eq_true, decide_eq_true_eq] at isBreak
        rcases isBreak with rfl | rfl
        · exact .inl rfl
        · right
          cases text with
          | nil => simp
          | cons d text =>
            have := alone text rfl
            simp_all
      simp [shown]
    | succ i =>
      have shift : start + (i + 1) + 1 = start + 1 + i + 1 := by omega
      have other : ¬ start + 1 + i + 1 = start + 1 := by omega
      rw [shift, List.mem_cons, or_iff_right other, ih]
      simp [BreakEndsWith]
  | case4 start c text alone noBreak ih =>
    cases i with
    | zero =>
      have later : start + 1 ∉ breakEnds (start + 1) text := not_mem_breakEnds (Nat.le_refl _)
      simp only [Bool.or_eq_true, decide_eq_true_eq, not_or] at noBreak
      simp [BreakEndsWith, noBreak, later]
    | succ i =>
      have shift : start + (i + 1) + 1 = start + 1 + i + 1 := by omega
      rw [shift, ih]
      simp [BreakEndsWith]

/-! ## The table of lines -/

/-- The table goes on with the ends of the breaks of the rest, where no break is cut in two: the
step at a line feed takes back what the carriage return before it has entered. -/
theorem toList_lineStartsFrom (starts : Array Nat) {previous : Option Char}
    (whole : previous = some '\r' → text.head? ≠ some '\n') :
    (lineStartsFrom starts previous start text).toList = starts.toList ++ breakEnds start text := by
  fun_induction breakEnds start text generalizing starts previous with
  | case1 => simp [lineStartsFrom]
  | case2 start text ih => simp [lineStartsFrom, ih]
  | case3 start c text alone isBreak ih =>
    simp only [Bool.or_eq_true, decide_eq_true_eq] at isBreak
    rcases isBreak with rfl | rfl
    · have noReturn : previous ≠ some '\r' := fun back => whole back rfl
      simp [lineStartsFrom, noReturn, ih]
    · have next : text.head? ≠ some '\n' := by
        cases text with
        | nil => simp
        | cons d text =>
          rintro ⟨⟩
          exact alone text rfl rfl
      simp [lineStartsFrom, next, ih]
  | case4 start c text alone noBreak ih =>
    simp only [Bool.or_eq_true, decide_eq_true_eq, not_or] at noBreak
    simp [lineStartsFrom, noBreak, ih]

/-- The lines of a text begin at its start and behind its breaks. -/
theorem toList_lineStarts (text : List Char) :
    (lineStarts text).toList = 0 :: breakEnds 0 text :=
  toList_lineStartsFrom #[0] (by simp)

end Text

/-! ## The search in the table -/

section Search

variable {table : Array Nat}

theorem getElem_le_of_ascending (ascending : table.toList.Pairwise (· < ·)) {i j : Nat}
    (h : j < table.size) (le : i ≤ j) : table[i] ≤ table[j] := by
  rcases Nat.lt_or_eq_of_le le with lt | rfl
  · exact Nat.le_of_lt (List.pairwise_iff_getElem.1 ascending i j (Nat.lt_trans lt h) h lt)
  · exact Nat.le_refl _

/-- The search parts the table: what comes before the place is no greater than the number, what comes
behind it is. -/
theorem bisectRight_parts {n : Int} {low high : Nat} (inside : high ≤ table.size)
    (ascending : table.toList.Pairwise (· < ·)) (ordered : low ≤ high)
    (below : ∀ i (h : i < table.size), i < low → table[i] ≤ n)
    (above : ∀ i (h : i < table.size), high ≤ i → n < table[i]) :
    bisectRight table n low high inside ≤ table.size ∧
      (∀ i (h : i < table.size), i < bisectRight table n low high inside → table[i] ≤ n) ∧
      ∀ i (h : i < table.size), bisectRight table n low high inside ≤ i → n < table[i] := by
  fun_induction bisectRight table n low high inside with
  | case1 low high inside more middle left less ih =>
    apply ih (by omega) below
    intro i h le
    have := getElem_le_of_ascending ascending h le
    omega
  | case2 low high inside more middle left notLess ih =>
    apply ih left _ above
    intro i h lt
    have := getElem_le_of_ascending ascending (show middle < table.size by omega)
      (Nat.le_of_lt_succ lt)
    omega
  | case3 low high inside done =>
    have same : low = high := by omega
    subst same
    exact ⟨inside, below, above⟩

/-- In an ascending table, the entries before the place of a number are the ones that are no
greater. -/
theorem take_bisectRight (ascending : table.toList.Pairwise (· < ·)) (n : Nat) :
    table.toList.take (bisectRight table n 0 table.size (Nat.le_refl _)) =
      table.toList.filter (· ≤ n) := by
  obtain ⟨-, below, above⟩ := bisectRight_parts (n := n) (Nat.le_refl _) ascending
    (Nat.zero_le table.size) (by simp) (by omega)
  generalize bisectRight table n 0 table.size (Nat.le_refl _) = place at below above ⊢
  have kept : (table.toList.take place).filter (· ≤ n) = table.toList.take place := by
    apply List.filter_eq_self.2
    intro e member
    obtain ⟨i, h, rfl⟩ := List.mem_take_iff_getElem.1 member
    simpa using below i (by simp at h; omega) (by omega)
  have gone : (table.toList.drop place).filter (· ≤ n) = [] := by
    apply List.filter_eq_nil_iff.2
    intro e member
    obtain ⟨i, h, rfl⟩ := List.mem_drop_iff_getElem.1 member
    simpa [Nat.add_comm] using above (i + place) h (by omega)
  calc table.toList.take place
      = (table.toList.take place).filter (· ≤ n) ++
          (table.toList.drop place).filter (· ≤ n) := by
        rw [kept, gone, List.append_nil]
    _ = table.toList.filter (· ≤ n) := by
        rw [← List.filter_append, List.take_append_drop]

/-- In an ascending table, the place of a number is the count of the entries that are no greater. -/
theorem bisectRight_eq_length (ascending : table.toList.Pairwise (· < ·)) (n : Nat) :
    bisectRight table n 0 table.size (Nat.le_refl _) = (table.toList.filter (· ≤ n)).length := by
  obtain ⟨le, -⟩ := bisectRight_parts (n := n) (Nat.le_refl _) ascending
    (Nat.zero_le table.size) (by simp) (by omega)
  rw [← take_bisectRight ascending, List.length_take, Array.length_toList, Nat.min_eq_left le]

end Search

open Text

/-! ## Positions of a source -/

namespace Source

/-- The offsets up to `n` at which line breaks of a source end. -/
def breaksBefore (s : Source) (n : Nat) : List Nat :=
  (breakEnds 0 s.chars).filter (· ≤ n)

theorem pairwise_lineStarts (s : Source) : s.lineStarts.toList.Pairwise (· < ·) := by
  rw [lineStarts, toList_lineStarts]
  exact .cons (fun e he => lt_of_mem_breakEnds he) (pairwise_breakEnds 0 s.chars)

/-- The position counts the line breaks that end at or before an offset, and its column is the
distance to the end of the last of them, or to the beginning of the source where there is none. -/
structure Places (s : Source) (n : Nat) (p : Position) : Prop where
  offset : p.offset = n
  line : p.line = (s.breaksBefore n).length
  column : p.column + (s.breaksBefore n).getLastD 0 = n

variable {s : Source}

theorem mem_breaksBefore_iff {n e : Nat} :
    e ∈ s.breaksBefore n ↔ e ≤ n ∧ ∃ i, e = i + 1 ∧ BreakEndsWith s.chars i := by
  have found : e ∈ breakEnds 0 s.chars ↔ ∃ i, e = i + 1 ∧ BreakEndsWith s.chars i := by
    constructor
    · intro member
      obtain ⟨i, rfl⟩ := Nat.exists_eq_add_of_lt (lt_of_mem_breakEnds member)
      exact ⟨i, by omega, mem_breakEnds_iff.1 member⟩
    · rintro ⟨i, rfl, shown⟩
      have member : 0 + i + 1 ∈ breakEnds 0 s.chars := mem_breakEnds_iff.2 shown
      rwa [Nat.zero_add] at member
  rw [breaksBefore, List.mem_filter, found, decide_eq_true_iff, and_comm]

theorem pairwise_breaksBefore (s : Source) (n : Nat) : (s.breaksBefore n).Pairwise (· < ·) :=
  (pairwise_breakEnds 0 s.chars).filter _

/-- The lines that begin up to an offset are the first one and those behind a break up to it. -/
theorem filter_lineStarts (s : Source) (n : Nat) :
    s.lineStarts.toList.filter (· ≤ n) = 0 :: s.breaksBefore n := by
  rw [lineStarts, toList_lineStarts, List.filter_cons_of_pos (by simp), breaksBefore]

theorem lineAt_eq (s : Source) (n : Nat) : s.lineAt n = (s.breaksBefore n).length := by
  rw [lineAt, bisectRight_eq_length (s.pairwise_lineStarts), filter_lineStarts, List.length_cons,
    Nat.add_sub_cancel]

/-- The line of an offset begins behind the last break up to it. -/
theorem lineStart_lineAt (s : Source) (n : Nat) :
    s.lineStart (s.lineAt n) = (s.breaksBefore n).getLastD 0 := by
  have taken := take_bisectRight (s.pairwise_lineStarts) n
  rw [bisectRight_eq_length (s.pairwise_lineStarts), filter_lineStarts] at taken
  have begun : s.lineStarts.toList[s.lineAt n]? = some ((s.breaksBefore n).getLastD 0) := by
    rw [lineAt_eq]
    calc s.lineStarts.toList[(s.breaksBefore n).length]?
        = (0 :: s.breaksBefore n)[(s.breaksBefore n).length]? := by
          rw [← taken, List.getElem?_take_of_lt (by simp)]
      _ = some ((s.breaksBefore n).getLastD 0) := by
          simpa [List.getLast?_cons] using
            (List.getLast?_eq_getElem? (l := 0 :: s.breaksBefore n)).symm
  rw [lineStart, Array.getD_eq_getD_getElem?, ← Array.getElem?_toList, begun, Option.getD_some]

/-- No line begins behind the offsets that are on it. -/
theorem lineStart_le (s : Source) (n : Nat) : s.lineStart (s.lineAt n) ≤ n := by
  rw [lineStart_lineAt]
  have listed : (s.breaksBefore n).getLastD 0 ∈ 0 :: s.breaksBefore n := List.getLastD_mem_cons
  rcases List.mem_cons.1 listed with first | later
  · rw [first]
    exact Nat.zero_le n
  · exact (mem_breaksBefore_iff.1 later).1

/-- No coordinate of an offset that is not negative is negative. -/
theorem positionAt?_natCast (s : Source) (n : Nat) : s.positionAt? n = .ok (s.positionAt n) := by
  have le := s.lineStart_le n
  have column : (n : Int) - s.lineStart (s.lineAt n) = (n - s.lineStart (s.lineAt n) : Nat) := by
    omega
  rw [positionAt?, column]
  rfl

theorem places_positionAt (s : Source) (n : Nat) : s.Places n (s.positionAt n) := by
  refine ⟨rfl, s.lineAt_eq n, ?_⟩
  rw [← lineStart_lineAt]
  exact Nat.sub_add_cancel (s.lineStart_le n)

theorem positionAt_lt {m n : Nat} (h : m < n) :
    (s.positionAt m).line < (s.positionAt n).line ∨
      (s.positionAt m).line = (s.positionAt n).line ∧
        (s.positionAt m).column < (s.positionAt n).column := by
  have earlier := s.places_positionAt m
  have later := s.places_positionAt n
  have more : (s.breaksBefore m).Sublist (s.breaksBefore n) := by
    apply List.monotone_filter_right
    intro e
    simp only [decide_eq_true_eq]
    omega
  rw [earlier.line, later.line]
  rcases Nat.lt_or_eq_of_le more.length_le with fewer | same
  · exact .inl fewer
  · -- the same breaks, so both columns are counted from the same place
    have breaks := more.eq_of_length same
    have column := earlier.column
    have column' := later.column
    rw [breaks] at column
    omega

/-- Every offset has a position that counts the line breaks up to it, also after the end of the
source. These breaks are listed in order, each once. Line and column together grow with the offset,
so no two offsets share both. A negative offset has no position. -/
theorem positionAt_counts_breaks (s : Source) :
    (∀ n : Nat, s.positionAt? n = .ok (s.positionAt n) ∧ s.Places n (s.positionAt n)) ∧
      (∀ n : Nat, (s.breaksBefore n).Pairwise (· < ·) ∧
        ∀ e, e ∈ s.breaksBefore n ↔ e ≤ n ∧ ∃ i, e = i + 1 ∧ BreakEndsWith s.chars i) ∧
      (StrictMono fun n => toLex ((s.positionAt n).line, (s.positionAt n).column)) ∧
      (Function.Injective fun n => ((s.positionAt n).line, (s.positionAt n).column)) ∧
      ∀ offset : Int, offset < 0 →
        ∃ f : Fault, s.positionAt? offset = .error f ∧ f.family = "InvalidRange" := by
  have grows : StrictMono fun n => toLex ((s.positionAt n).line, (s.positionAt n).column) := by
    intro m n h
    exact Prod.Lex.toLex_lt_toLex.2 (positionAt_lt h)
  refine ⟨?_, ?_, grows, ?_, ?_⟩
  · intro n
    exact ⟨s.positionAt?_natCast n, s.places_positionAt n⟩
  · intro n
    exact ⟨s.pairwise_breaksBefore n, fun e => mem_breaksBefore_iff⟩
  · intro m n same
    exact grows.injective (congrArg toLex same)
  · intro offset negative
    exact ⟨_, Position.of?_eq_error_iff.2 ⟨.inl negative, rfl⟩, rfl⟩

/-- A carriage return alone, both characters together, and a line feed alone. -/
def brokenLines : Source :=
  ⟨"lines", "a\r\r\n\nb"⟩

/-- The offset between the two characters of a break is on the line that the break ends. -/
theorem positionAt_counts_breaks_brokenLines :
    (brokenLines.positionAt? 3 = .ok ⟨1, 1, 3⟩ ∧ brokenLines.Places 3 ⟨1, 1, 3⟩ ∧
        brokenLines.breaksBefore 3 = [2]) ∧
      (3 < 4 ∧ toLex (1, 1) < toLex (2, 0) ∧ brokenLines.positionAt 4 = ⟨2, 0, 4⟩) ∧
      (-1 : Int) < 0 ∧ ∃ f : Fault, brokenLines.positionAt? (-1) = .error f ∧
        f.family = "InvalidRange" := by
  have three : brokenLines.positionAt 3 = ⟨1, 1, 3⟩ := by decide
  have four : brokenLines.positionAt 4 = ⟨2, 0, 4⟩ := by decide
  obtain ⟨places, -, grows, -, negative⟩ := positionAt_counts_breaks brokenLines
  obtain ⟨answered, place⟩ := places 3
  rw [three] at answered place
  have further : toLex (1, 1) < toLex (2, 0) := by
    have := grows (by decide : 3 < 4)
    simpa only [three, four] using this
  exact ⟨⟨answered, place, by decide⟩, ⟨by decide, further, four⟩, by decide,
    negative (-1) (by decide)⟩

example : (List.range 8).map (fun n => ((brokenLines.positionAt n).line,
    (brokenLines.positionAt n).column)) =
      [(0, 0), (0, 1), (1, 0), (1, 1), (2, 0), (3, 0), (3, 1), (3, 2)] := by
  decide

end Source

end JavaScope
