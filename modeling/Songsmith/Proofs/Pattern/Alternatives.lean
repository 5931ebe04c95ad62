import Songsmith.Pattern.Alternatives
import Mathlib.Algebra.Ring.Parity
import Mathlib.Data.List.DropRight

/-!
# Joined alternatives

Texts of any characters are made into one list of alternatives by escaping each of them
(`Alternatives.escaped`) and putting separators between them (`Alternatives.join`). Splitting is the
inverse of this: it passes an escaped text as the text itself, whatever has been read before
(`Alternatives.splitFrom?_escaped`), and stops at the separators in between, which are not escaped.

Of a text that is not made so, splitting asks for one thing only: that no escape is left over at its
end. Whether one is depends on the run of escape characters there and on nothing before it, since
they escape each other in pairs (`Alternatives.pending_eq_true_iff`). `Alternatives.split_join` says
both.
-/

namespace Songsmith.Alternatives

/-- The text with an escape character in front of every separator and every escape character. -/
def escaped (separator escape : Char) (text : Text) : Text :=
  text.flatMap fun c => if c = separator ∨ c = escape then [escape, c] else [c]

/-- Texts as one list of alternatives. -/
def join (separator escape : Char) (parts : List Text) : Text :=
  List.intercalate [separator] (parts.map (escaped separator escape))

/-- How many escape characters a text ends in. -/
def escapesAtEnd (escape : Char) (text : Text) : Nat := (text.rtakeWhile (· = escape)).length

/-- An escape stands just before what follows a character, if one did before the character or did
not. -/
def pendingAfter (escape : Char) (before : Bool) (c : Char) : Bool := !before && c = escape

/-- An escape is left over at the end of a text. -/
def pending (escape : Char) (text : Text) : Bool := text.foldl (pendingAfter escape) false

section
variable {separator escape : Char}

/-! ## Joined texts -/

/-- An escaped text is read as the text, whatever stands behind it. -/
theorem splitFrom?_escaped (text current rest : Text) :
    splitFrom? separator escape current false (escaped separator escape text ++ rest) =
      splitFrom? separator escape (text.reverse ++ current) false rest := by
  induction text generalizing current with
  | nil => rfl
  | cons c text ih =>
    have htail : ∀ current, splitFrom? separator escape current false
        (List.flatMap (fun c => if c = separator ∨ c = escape then [escape, c] else [c]) text ++
          rest) = splitFrom? separator escape (text.reverse ++ current) false rest := ih
    rw [escaped, List.flatMap_cons, List.append_assoc]
    split
    · rw [List.cons_append, List.singleton_append, splitFrom?, if_pos rfl, splitFrom?, htail]
      simp
    · rename_i hplain
      obtain ⟨hseparator, hescape⟩ := not_or.1 hplain
      rw [List.singleton_append, splitFrom?, if_neg (by simpa using Ne.symm hescape),
        if_neg (by simpa using Ne.symm hseparator), htail]
      simp

/-- Joined texts are cut into the texts again. -/
theorem splitFrom?_join (hne : separator ≠ escape) {parts : List Text} (hparts : parts ≠ []) :
    splitFrom? separator escape [] false (join separator escape parts) = some parts := by
  induction parts with
  | nil => exact absurd rfl hparts
  | cons part parts ih =>
    cases parts with
    | nil =>
      have hlast : splitFrom? separator escape [] false (escaped separator escape part ++ []) =
          splitFrom? separator escape (part.reverse ++ []) false [] := splitFrom?_escaped part [] []
      rw [List.append_nil] at hlast
      rw [join, List.map_singleton, List.intercalate_singleton, hlast, splitFrom?]
      simp
    | cons next parts =>
      have hrest := ih (List.cons_ne_nil _ _)
      rw [join] at hrest
      rw [join, List.map_cons, List.map_cons, List.intercalate_cons_cons, ← List.map_cons,
        List.append_assoc, splitFrom?_escaped, List.singleton_append, splitFrom?,
        if_neg (by simpa using Ne.symm hne), if_pos rfl, hrest]
      simp

/-! ## Escapes that are left over -/

/-- A text is not cut exactly if an escape is left over at its end. -/
theorem splitFrom?_eq_none_iff {separator : Option Char} (current : Text) (before : Bool)
    (text : Text) : splitFrom? separator escape current before text = none ↔
      text.foldl (pendingAfter escape) before = true := by
  fun_induction splitFrom? separator (some escape) current before text with
  | case1 current => exact iff_of_true rfl rfl
  | case2 current => simp
  | case3 current c rest ih => exact ih
  | case4 current c rest hescape ih =>
    rw [ih, List.foldl_cons]
    cases hescape
    simp [pendingAfter]
  | case5 current c rest hescape _ ih =>
    rw [Option.map_eq_none_iff, ih, List.foldl_cons]
    have hc : c ≠ escape := fun h => hescape (congrArg some h.symm)
    simp [pendingAfter, hc]
  | case6 current c rest hescape _ ih =>
    rw [ih, List.foldl_cons]
    have hc : c ≠ escape := fun h => hescape (congrArg some h.symm)
    simp [pendingAfter, hc]

/-- An escape is left over exactly if the text ends in an odd number of them. -/
theorem pending_eq_true_iff (text : Text) :
    pending escape text = true ↔ Odd (escapesAtEnd escape text) := by
  induction text using List.reverseRecOn with
  | nil => simp [pending, escapesAtEnd]
  | append_singleton text c ih =>
    have hpending : pending escape (text ++ [c]) = pendingAfter escape (pending escape text) c :=
      List.foldl_concat ..
    rw [hpending, pendingAfter, escapesAtEnd, List.rtakeWhile_concat]
    by_cases hc : c = escape
    · rw [if_pos (by simpa using hc), List.length_append, List.length_singleton, Nat.odd_add_one]
      simp only [hc, decide_true, Bool.and_true, Bool.not_eq_true']
      rw [← Bool.not_eq_true, ih, escapesAtEnd]
    · simp [hc]

/-- The left over escape is the only error. -/
theorem split_eq_error_iff {separator : Option Char} {text : Text} {e : Error} :
    split text separator escape = .error e ↔
      e = .malformed (.trailingEscape text) ∧ pending escape text = true := by
  have hnone : splitFrom? separator escape [] false text = none ↔
      text.foldl (pendingAfter escape) false = true := splitFrom?_eq_none_iff [] false text
  rw [pending, ← hnone, split]
  split
  · rename_i parts hparts
    simp [hparts]
  · rename_i hparts
    simp [hparts, eq_comm]

end

/-- Texts that are joined to a list of alternatives are what it is split into, whatever is in them;
and any text can be split, unless it ends in an odd number of escape characters. -/
theorem split_join {separator escape : Char} (hne : separator ≠ escape) :
    (∀ parts ≠ [], split (join separator escape parts) separator escape = .ok parts) ∧
      ∀ text e, split text separator escape = .error e ↔
        e = .malformed (.trailingEscape text) ∧ Odd (escapesAtEnd escape text) := by
  refine ⟨fun parts hparts => ?_, fun text e => ?_⟩
  · rw [split, splitFrom?_join hne hparts]
  · rw [split_eq_error_iff, pending_eq_true_iff]

/-- Empty texts at both ends, and texts of nothing but separators and escapes. -/
theorem split_join_marks :
    '|' ≠ '\\' ∧ join '|' '\\' [[], ['|', '\\'], ['\\'], []] =
      ['|', '\\', '|', '\\', '\\', '|', '\\', '\\', '|'] ∧
    split ['|', '\\', '|', '\\', '\\', '|', '\\', '\\', '|'] =
      .ok [[], ['|', '\\'], ['\\'], []] ∧
    split ['|', '\\', '\\', '\\'] =
      .error (.malformed (.trailingEscape ['|', '\\', '\\', '\\'])) := by
  have hne : '|' ≠ '\\' := by decide
  obtain ⟨hparts, herror⟩ := split_join hne
  exact ⟨hne, rfl, hparts [[], ['|', '\\'], ['\\'], []] (by decide),
    (herror ['|', '\\', '\\', '\\'] _).2 ⟨rfl, by decide⟩⟩

end Songsmith.Alternatives
