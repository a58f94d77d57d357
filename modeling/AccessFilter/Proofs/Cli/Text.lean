import AccessFilter.Proofs.Cli.Report
import AccessFilter.Proofs.Json.Inline
import AccessFilter.Proofs.Sql.Rendered

/-!
# Bound values stay in their comments

In the text of a report every bound value stands in a comment of one line, which no value can leave,
and the comments are labelled as the placeholders of the SQL text are numbered.

* `FilterReport.header`, `FilterReport.clause`, `FilterReport.comments`   the parts of the text;
* `splitOn_paramLines`         the lines behind the SQL text are the comments;
* `Fragment.InStep`            placeholders and bound values match by their places;
* `FilterReport.text_lines`    the text of a report, line by line.
-/

namespace AccessFilter

open Sql

namespace FilterReport

/-! ## the parts of the text -/

def header (r : FilterReport) : List Char :=
  "-- ".toList ++ r.action.toList ++ ' ' :: r.subject.toList ++ " (".toList ++
    Nat.toDigits 10 r.rules ++ " rules)".toList

def clause (r : FilterReport) : List Char := "WHERE ".toList ++ r.fragment.sql.toList

def comment (style : Placeholder) (k : Nat) (v : Value) : List Char :=
  "-- ".toList ++ style.marker :: Nat.toDigits 10 k ++ " = ".toList ++ v.jsonChars

/-- The comments for the bound values, counted from one. -/
def comments (r : FilterReport) : List (List Char) :=
  r.fragment.params.mapIdx fun i v => comment r.placeholder (i + 1) v

/-! ## one line per value -/

theorem paramLines_cons (marker : Char) (k : Nat) (v : Value) (vs : List Value) :
    paramLines marker k (v :: vs) = paramLine marker k v ++ paramLines marker (k + 1) vs := rfl

theorem isInline_comment (style : Placeholder) (k : Nat) (v : Value) :
    IsInline (comment style k v) := by
  have hmarker : 0x20 ≤ style.marker.toNat := by cases style <;> decide
  simp only [comment, isInline_append, isInline_cons]
  exact ⟨⟨⟨by decide, hmarker, isInline_toDigits k⟩, by decide⟩, v.isInline_jsonChars⟩

/-- Since no value ends its line, there are as many lines as values, each with its own. -/
theorem splitOn_paramLines (style : Placeholder) (k : Nat) (vs : List Value) :
    (paramLines style.marker k vs).splitOn '\n'
      = (vs.mapIdx fun i v => comment style (k + i) v) ++ [[]] := by
  induction vs generalizing k with
  | nil => rfl
  | cons v vs ih =>
    have hline : paramLine style.marker k v = comment style k v ++ ['\n'] := rfl
    have hnone : '\n' ∉ comment style k v := (isInline_comment style k v).not_mem_lineEnd.1
    have hnumber : ∀ i, k + 1 + i = k + (i + 1) := fun i => by omega
    rw [paramLines_cons, hline, List.append_assoc, List.singleton_append,
      List.splitOn_append_cons_self_of_not_mem hnone, ih, List.mapIdx_cons, List.cons_append]
    simp only [hnumber, Nat.add_zero]

theorem toList_text (r : FilterReport) :
    r.text.toList = r.header ++ '\n' :: r.clause ++
      '\n' :: paramLines r.placeholder.marker 1 r.fragment.params := by
  have hblank : " ".toList = [' '] := by decide
  have hlineEnd : "\n".toList = ['\n'] := by decide
  have hrules : " rules)\n".toList = " rules)".toList ++ ['\n'] := by decide
  delta text header clause
  simp only [String.toList_append, String.toList_ofList, hblank, hlineEnd, hrules,
    List.append_assoc, List.cons_append, List.nil_append]

end FilterReport

/-! ## labels and placeholders -/

theorem Sql.numbered_eq_mapIdx {β : Type} (slot : Nat → Value → β) (bound : Nat)
    (vs : List Value) : numbered slot bound vs = vs.mapIdx fun i v => slot (bound + i + 1) v := by
  induction vs generalizing bound with
  | nil => rfl
  | cons v vs ih =>
    have hnumber : ∀ i, bound + 1 + i + 1 = bound + (i + 1) + 1 := fun i => by omega
    rw [numbered, ih, List.mapIdx_cons]
    simp only [hnumber, Nat.add_zero]

/-- Read as SQL, the text has a placeholder for every value and no other: the `k`-th one has the
number `k`, or none in a style without numbers, and it stands for the `k`-th value. -/
def Fragment.InStep (style : Placeholder) (f : Fragment) : Prop :=
  ∃ marks, scan f.sql.toList = some marks ∧
    slots marks = (f.params.mapIdx fun i _ => style.mark (i + 1)) ∧
    (fill f.params 0 marks).map slots = some f.params

theorem Predicate.inStep_fragment (style : Placeholder) (p : Predicate) :
    (p.fragment style).InStep style := by
  refine ⟨p.tokens (fun k _ => style.mark k) 0, ?_, ?_, ?_⟩
  · rw [fragment, String.toList_ofList]
    exact p.scan_render style
  · rw [p.slots_tokens, numbered_eq_mapIdx, fragment]
    simp only [Nat.zero_add]
  · have hvalues : slots (p.tokens (fun _ v => v) 0) = p.values := by
      rw [p.slots_tokens, numbered_eq_mapIdx]
      exact List.ext_getElem (by simp) (by simp)
    rw [fragment, p.fill_tokens style, Option.map_some, hvalues]

/-! ## the text of a report -/

namespace FilterReport

/-- **Bound values cannot leave their comments.** Behind the comment for the request and the SQL text
a report has as many lines as bound values, the `k`-th being the comment for the `k`-th value, and no
comment and no JSON text of a value has a line feed or a carriage return. If the SQL text is that of a
predicate, as it is in every report on a request, the label `k` names its `k`-th placeholder. -/
theorem text_lines (r : FilterReport) :
    (∃ rest, r.text.toList = r.header ++ '\n' :: r.clause ++ '\n' :: rest ∧
      rest.splitOn '\n' = r.comments ++ [[]]) ∧
    (∀ v : Value, '\n' ∉ v.jsonChars ∧ '\r' ∉ v.jsonChars) ∧
    (∀ line ∈ r.comments, '\n' ∉ line ∧ '\r' ∉ line) ∧
    (∀ p : Predicate, r.fragment = p.fragment r.placeholder → r.fragment.InStep r.placeholder) ∧
    (∀ disk s action subject, compileFilter disk s action subject = .ok r →
      ∃ p : Predicate, r.fragment = p.fragment r.placeholder) := by
  refine ⟨⟨_, r.toList_text, ?_⟩, fun v => v.isInline_jsonChars.not_mem_lineEnd, ?_, ?_, ?_⟩
  · rw [splitOn_paramLines, comments]
    simp only [Nat.add_comm 1]
  · intro line hline
    obtain ⟨i, hi, rfl⟩ := List.exists_of_mem_mapIdx hline
    exact (isInline_comment _ _ _).not_mem_lineEnd
  · intro p hp
    rw [hp]
    exact p.inStep_fragment r.placeholder
  · intro disk s action subject h
    obtain ⟨_, _, _, _, filter, _, _, _, _, _, rfl⟩ :=
      (compileFilter_eq_ok_iff_stages disk s action subject r).mp h
    exact ⟨filter, rfl⟩

/-- A value with a line feed and a comment marker. -/
example : comment .question 2 (.array [.string "a\n--b"]) = "-- ?2 = [\"a\\n--b\"]".toList := by
  decide

end FilterReport

end AccessFilter
