import Mathlib.Data.List.TakeWhile
import TreeShell.CommandLine
import TreeShell.Proofs.Text.Split
import TreeShell.Proofs.Text.Trim

/-! # What is a redirect

A redirect stands at the end of a text: a mark, blanks, and a target without blanks. There may be several marks of which
this can be said, and a line takes the rightmost one (`splitRedirect_eq_some`, `CommandLine.parse_cases`).
-/

namespace TreeShell.CommandLine

/-- Whether some characters end in a redirect: these characters, a mark, perhaps blanks, and this target without blanks. -/
structure Redirects (cs before target : List Char) : Prop where
  cut : ∃ blanks, cs = before ++ '>' :: (blanks ++ target) ∧ ∀ c ∈ blanks, Text.isBlank c = true
  filled : target ≠ []
  solid : ∀ c ∈ target, Text.isBlank c = false

/-- Whether no mark further to the right makes a redirect. -/
def Rightmost (cs before : List Char) : Prop :=
  ∀ before' target', Redirects cs before' target' → before'.length ≤ before.length

variable {c : Char} {cs before target : List Char}

theorem isBlank_of_mem_space : ∀ c ∈ " ".toList, Text.isBlank c = true := List.forall_mem_singleton.mpr rfl

theorem isTarget_iff : isTarget target = true ↔ target ≠ [] ∧ ∀ c ∈ target, Text.isBlank c = false := by
  simp [isTarget]

/-- The first character is the mark of a redirect exactly if a target stands behind it. -/
theorem redirects_nil_iff :
    Redirects (c :: cs) [] target ↔ c = '>' ∧ target = cs.dropWhile Text.isBlank ∧ isTarget target = true := by
  rw [isTarget_iff]
  constructor
  · rintro ⟨⟨blanks, whole, blank⟩, filled, solid⟩
    obtain ⟨rfl, rfl⟩ := List.cons_eq_cons.mp whole
    have kept : target.dropWhile Text.isBlank = target := by
      obtain ⟨first, later, rfl⟩ := List.exists_cons_of_ne_nil filled
      exact List.dropWhile_cons_of_neg (by simp [solid first (List.mem_cons_self ..)])
    rw [List.dropWhile_append_of_pos blank, kept]
    exact ⟨rfl, rfl, filled, solid⟩
  · rintro ⟨rfl, rfl, filled, solid⟩
    refine ⟨⟨cs.takeWhile Text.isBlank, ?_, fun c member => List.mem_takeWhile_imp member⟩, filled, solid⟩
    rw [List.takeWhile_append_dropWhile]
    rfl

/-- A mark behind the first character makes a redirect as it does without that character. -/
theorem redirects_cons_iff {first : Char} :
    Redirects (c :: cs) (first :: before) target ↔ c = first ∧ Redirects cs before target := by
  constructor
  · rintro ⟨⟨blanks, whole, blank⟩, filled, solid⟩
    obtain ⟨rfl, rfl⟩ := List.cons_eq_cons.mp whole
    exact ⟨rfl, ⟨blanks, rfl, blank⟩, filled, solid⟩
  · rintro ⟨rfl, ⟨blanks, rfl, blank⟩, filled, solid⟩
    exact ⟨⟨blanks, rfl, blank⟩, filled, solid⟩

theorem splitRedirect_eq_none_iff : splitRedirect cs = none ↔ ∀ before target, ¬ Redirects cs before target := by
  induction cs with
  | nil =>
    refine iff_of_true rfl ?_
    rintro before target ⟨⟨blanks, whole, -⟩, -, -⟩
    simp at whole
  | cons c rest ih =>
    rw [splitRedirect]
    cases inside : splitRedirect rest with
    | some found =>
      obtain ⟨before, target⟩ := found
      have stands : ¬ ∀ before target, ¬ Redirects rest before target := by rw [← ih, inside]; exact nofun
      refine iff_of_false nofun fun none => stands fun before target redirects => ?_
      exact none (c :: before) target (redirects_cons_iff.mpr ⟨rfl, redirects⟩)
    | none =>
      have nothing := ih.mp inside
      dsimp only
      split
      · next mark =>
        exact iff_of_false nofun fun none => none [] _ (redirects_nil_iff.mpr ⟨mark.1, rfl, mark.2⟩)
      · next mark =>
        refine iff_of_true rfl fun before target redirects => ?_
        cases before with
        | nil =>
          obtain ⟨marked, rfl, isTarget⟩ := redirects_nil_iff.mp redirects
          exact mark ⟨marked, isTarget⟩
        | cons first before => exact nothing before target (redirects_cons_iff.mp redirects).2

/-- A redirect is split off at the rightmost mark that makes one. -/
theorem splitRedirect_eq_some (found : splitRedirect cs = some (before, target)) :
    Redirects cs before target ∧ Rightmost cs before := by
  induction cs generalizing before with
  | nil => cases found
  | cons c rest ih =>
    rw [splitRedirect] at found
    cases inside : splitRedirect rest with
    | some parts =>
      obtain ⟨early, later⟩ := parts
      rw [inside] at found
      obtain ⟨rfl, rfl⟩ := Prod.mk.inj (Option.some.inj found)
      obtain ⟨redirects, rightmost⟩ := ih inside
      refine ⟨redirects_cons_iff.mpr ⟨rfl, redirects⟩, fun before' target' other => ?_⟩
      cases before' with
      | nil => exact Nat.zero_le _
      | cons first before' => exact Nat.succ_le_succ (rightmost _ _ (redirects_cons_iff.mp other).2)
    | none =>
      have nothing := splitRedirect_eq_none_iff.mp inside
      rw [inside] at found
      dsimp only at found
      split at found
      · next mark =>
        obtain ⟨rfl, rfl⟩ := Prod.mk.inj (Option.some.inj found)
        refine ⟨redirects_nil_iff.mpr ⟨mark.1, rfl, mark.2⟩, fun before' target' other => ?_⟩
        cases before' with
        | nil => exact Nat.le_refl 0
        | cons first before' => exact absurd (redirects_cons_iff.mp other).2 (nothing _ _)
      · cases found

theorem splitRedirect_of_not_mem (free : '>' ∉ cs) : splitRedirect cs = none := by
  refine splitRedirect_eq_none_iff.mpr ?_
  rintro before target ⟨⟨blanks, rfl, -⟩, -, -⟩
  exact free (List.mem_append_right _ (List.mem_cons_self ..))

/-- Where there is no other mark behind it, a mark before a target makes a redirect. -/
theorem splitRedirect_append (isTarget : isTarget target = true) (free : '>' ∉ target) (before : List Char) :
    splitRedirect (before ++ '>' :: ' ' :: target) = some (before, target) := by
  induction before with
  | nil =>
    have none : splitRedirect (' ' :: target) = none := splitRedirect_of_not_mem (by simp [free])
    have redirects : Redirects ('>' :: ' ' :: target) [] target :=
      ⟨⟨[' '], rfl, isBlank_of_mem_space⟩, (isTarget_iff.mp isTarget).1, (isTarget_iff.mp isTarget).2⟩
    obtain ⟨-, dropped, -⟩ := redirects_nil_iff.mp redirects
    rw [List.nil_append, splitRedirect, none, ← dropped]
    exact if_pos ⟨rfl, isTarget⟩
  | cons c rest ih => rw [List.cons_append, splitRedirect, ih]

/-- The stages of a line are those before its last bar and then what follows that bar, up to the redirect that this ends in:
the rightmost one, if there is one. -/
theorem parse_cases (line : String) :
    ∃ front, let text := Text.trim (Text.afterLast '|' line)
      Text.split '|' line = front ++ [Text.afterLast '|' line] ∧
      (((∀ before target, ¬ Redirects text.toList before target) ∧ parse line = ⟨front.map Text.trim ++ [text], none⟩) ∨
        ∃ before target, Redirects text.toList before target ∧ Rightmost text.toList before ∧
          parse line = ⟨front.map Text.trim ++ [Text.trim (String.ofList before)], some (String.ofList target)⟩) := by
  obtain ⟨front, pieces⟩ := Text.exists_split '|' line
  refine ⟨front, pieces, ?_⟩
  rw [parse, pieces, List.map_append, List.map_singleton, List.getLastD_concat]
  cases found : splitRedirect (Text.trim (Text.afterLast '|' line)).toList with
  | none => exact .inl ⟨splitRedirect_eq_none_iff.mp found, rfl⟩
  | some parts =>
    obtain ⟨before, target⟩ := parts
    obtain ⟨redirects, rightmost⟩ := splitRedirect_eq_some found
    refine .inr ⟨before, target, redirects, rightmost, ?_⟩
    dsimp only
    rw [List.dropLast_concat]

/-! ## Lines with more behind them -/

/-- Whether a text can stand behind a mark without being cut: it is not empty, and has no blanks, bars and marks. -/
structure IsPlainTarget (target : String) : Prop where
  filled : target ≠ ""
  solid : ∀ c ∈ target.toList, Text.isBlank c = false
  noBar : '|' ∉ target.toList
  noMark : '>' ∉ target.toList

theorem IsPlainTarget.isTarget {target : String} (plain : IsPlainTarget target) : isTarget target.toList = true :=
  isTarget_iff.mpr ⟨fun nil => plain.filled (String.toList_injective nil), plain.solid⟩

variable {line target : String}

/-- A line that ends in no redirect: its stages are its pieces, and what is put behind it without a bar goes to the last. -/
theorem exists_parse_eq (plain : (parse line).target = none) :
    ∃ front last, parse line = ⟨front.map Text.trim ++ [Text.trim last], none⟩ ∧
      ∀ t, '|' ∉ t.toList → Text.split '|' (line ++ t) = front ++ [last ++ t] := by
  obtain ⟨front, pieces⟩ := Text.exists_split_append '|' line
  obtain ⟨front', whole, ⟨-, parsed⟩ | ⟨before, target, -, -, parsed⟩⟩ := parse_cases line
  · have alone := pieces "" (by simp)
    rw [String.append_empty, String.append_empty] at alone
    obtain ⟨rfl, -⟩ := List.append_inj' (whole.symm.trans alone) rfl
    exact ⟨front', _, parsed, pieces⟩
  · rw [parsed] at plain
    cases plain

theorem parse_append_redirect (plain : (parse line).target = none) (isTarget : IsPlainTarget target) :
    parse (line ++ " > " ++ target) = ⟨(parse line).stages, some target⟩ := by
  obtain ⟨front, last, parsed, pieces⟩ := exists_parse_eq plain
  have free : '|' ∉ (" > " ++ target).toList := by simp [isTarget.noBar]
  have filled : '>' :: ' ' :: target.toList ≠ [] := List.cons_ne_nil _ _
  have closed : Text.isBlank (('>' :: ' ' :: target.toList).getLast filled) = false := by
    obtain ⟨some, solid⟩ := isTarget_iff.mp isTarget.isTarget
    rw [List.getLast_cons (List.cons_ne_nil _ _), List.getLast_cons some]
    exact solid _ (List.getLast_mem some)
  have trimmed : (Text.trim (last ++ (" > " ++ target))).toList =
      (last.toList ++ " ".toList).dropWhile Text.isBlank ++ '>' :: ' ' :: target.toList := by
    rw [Text.trim, String.toList_ofList, String.toList_append, String.toList_append, ← Text.trimChars_append _ filled rfl closed,
      List.append_assoc]
    rfl
  rw [String.append_assoc, parse, pieces _ free, List.map_append, List.map_singleton, List.getLastD_concat, trimmed,
    splitRedirect_append isTarget.isTarget isTarget.noMark, parsed]
  dsimp only
  rw [List.dropLast_concat, Text.trim, String.toList_ofList, Text.trimChars_dropWhile,
    Text.trimChars_append_blanks _ isBlank_of_mem_space, String.ofList_toList]
  rfl

/-- A filter behind a line is its last stage, and the other stages stay as they are. -/
theorem parse_append_stage (plain : (parse line).target = none) (stage : String) (noBar : '|' ∉ stage.toList)
    (noMark : '>' ∉ stage.toList) (trimmed : Text.trim stage = stage) :
    parse (line ++ " | " ++ stage) = ⟨(parse line).stages ++ [stage], none⟩ := by
  obtain ⟨front, last, parsed, pieces⟩ := exists_parse_eq plain
  have free : '|' ∉ (" " ++ stage).toList := by simp [noBar]
  have whole : line ++ " | " ++ stage = line ++ " " ++ String.singleton '|' ++ (" " ++ stage) := by
    apply String.toList_injective
    simp
  have before : Text.trim (last ++ " ") = Text.trim last := by
    rw [Text.trim, String.toList_append, Text.trimChars_append_blanks _ isBlank_of_mem_space, Text.trim]
  have behind : Text.trim (" " ++ stage) = stage := by
    rw [Text.trim, String.toList_append, ← Text.trimChars_dropWhile, List.dropWhile_append_of_pos isBlank_of_mem_space,
      Text.trimChars_dropWhile, ← Text.trim, trimmed]
  rw [parse, whole, Text.split_append, pieces " " (by decide), Text.split_eq_singleton free, List.map_append,
    List.map_append, List.map_singleton, List.map_singleton, List.getLastD_concat, before, behind,
    splitRedirect_of_not_mem noMark, parsed]

end TreeShell.CommandLine
