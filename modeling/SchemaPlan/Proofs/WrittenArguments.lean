import SchemaPlan.Proofs.ArgumentLists
import SchemaPlan.Proofs.EngineRoundTrip

/-!
# Written argument lists

An argument list of any length is read back from its text, whatever forms its arguments are written
in and whatever blanks stand around them.

* `ArgumentForm`, `WrittenArgument`: an argument in one of its forms, between its blanks.
* `argumentList`: a declaration with its arguments and maybe one more comma behind them.
* `WrittenArgument.WellFormed`: only a bare argument has to be told apart from its surroundings.
* `splitPieces_listText`: the pieces of the list are its arguments, and one empty piece after a
  last comma.
* `arguments_argumentList`: **what is read are the values of the arguments**.
-/

namespace SchemaPlan.Sql

/-- How an argument is written. -/
inductive ArgumentForm
  | singleQuoted
  | doubleQuoted
  /-- As it is. -/
  | bare
  deriving DecidableEq, Repr

/-- The text of an argument without the blanks around it. -/
def ArgumentForm.write : ArgumentForm → String → String
  | singleQuoted, value => quoteLiteral value
  | doubleQuoted, value => String.ofList (literal '"' value.toList)
  | bare, value => value

/-- An argument as it is written, with the blanks around it. -/
structure WrittenArgument where
  before : String := ""
  form : ArgumentForm
  value : String
  after : String := ""

namespace WrittenArgument

/-- The argument without the blanks around it. -/
def body (a : WrittenArgument) : String := a.form.write a.value

/-- The argument as it stands in a list. -/
def text (a : WrittenArgument) : String := a.before ++ a.body ++ a.after

/-- A literal may stand for any text; a bare argument has to stand for itself. -/
structure WellFormed (a : WrittenArgument) : Prop where
  before_blank : ∀ b ∈ a.before.toList, isBlank b = true
  after_blank : ∀ b ∈ a.after.toList, isBlank b = true
  bare : a.form = .bare → IsBareArgument a.value

instance (a : WrittenArgument) : Decidable a.WellFormed :=
  decidable_of_iff (a.before.toList.all isBlank = true ∧ a.after.toList.all isBlank = true ∧
      (a.form = .bare → IsBareArgument a.value))
    ⟨fun ⟨hbefore, hafter, hbare⟩ =>
        ⟨List.all_eq_true.mp hbefore, List.all_eq_true.mp hafter, hbare⟩,
      fun h => ⟨List.all_eq_true.mpr h.before_blank, List.all_eq_true.mpr h.after_blank, h.bare⟩⟩

end WrittenArgument

/-- Arguments separated by commas. After one more comma there may be blanks. -/
def listText (args : List WrittenArgument) : Option String → String
  | none => ",".intercalate (args.map WrittenArgument.text)
  | some blanks => ",".intercalate (args.map WrittenArgument.text) ++ "," ++ blanks

/-- A name with an argument list. -/
def argumentList (name : String) (args : List WrittenArgument) (trailing : Option String) :
    String :=
  name ++ "(" ++ listText args trailing ++ ")"

variable {name : String} {args : List WrittenArgument} {a : WrittenArgument}
  {trailing : Option String}

/-! ## Single arguments -/

namespace WrittenArgument.WellFormed

variable (h : a.WellFormed)

include h

theorem isArgument_body : IsArgument a.body.toList := by
  rw [body]
  cases hform : a.form with
  | singleQuoted => exact Engine.isArgument_quoteLiteral a.value
  | doubleQuoted =>
    rw [ArgumentForm.write, String.toList_ofList]
    exact isArgument_literal rfl _
  | bare => exact (h.bare hform).argument

theorem argumentValue_body : argumentValue a.body = a.value := by
  rw [body]
  cases hform : a.form with
  | singleQuoted => exact argumentValue_quoteLiteral a.value
  | doubleQuoted =>
    rw [ArgumentForm.write, argumentValue, String.toList_ofList, unquote_literal (.inr rfl),
      String.ofList_toList]
  | bare => exact (h.bare hform).value

theorem body_ne_nil : a.body.toList ≠ [] := by
  refine toList_ne_nil ?_
  rw [body]
  cases hform : a.form with
  | singleQuoted => exact quoteLiteral_ne_empty a.value
  | doubleQuoted =>
    intro hempty
    have hnil := congrArg String.toList hempty
    rw [ArgumentForm.write, String.toList_ofList] at hnil
    cases hnil
  | bare => exact (h.bare hform).nonempty

theorem trim_text : trim a.text.toList = a.body.toList := by
  rw [text, String.toList_append, String.toList_append, trim_append_blanks h.after_blank,
    trim_blanks_append h.before_blank, h.isArgument_body.trimmed]

theorem balanced_text : Balanced a.text.toList := by
  rw [text, String.toList_append, String.toList_append]
  exact ((Balanced.of_blank h.before_blank).append h.isArgument_body.balanced).append
    (.of_blank h.after_blank)

theorem commaless_text : ',' ∉ exposed .start a.text.toList := by
  have hgap {blanks : List Char} (hblank : ∀ b ∈ blanks, isBlank b = true) :
      ',' ∉ exposed .start blanks := fun hmem =>
    notMem_of_blank hblank (by decide) ((exposed_sublist _ _).subset hmem)
  have hstart : ScanState.start.run (a.before.toList ++ a.body.toList) = .start :=
    ((Balanced.of_blank h.before_blank).append h.isArgument_body.balanced).run_start
  rw [text, String.toList_append, String.toList_append, exposed_append, hstart, exposed_append,
    ScanState.run_start_blanks h.before_blank, List.mem_append, List.mem_append]
  rintro ((hmem | hmem) | hmem)
  · exact hgap h.before_blank hmem
  · exact h.isArgument_body.commaless hmem
  · exact hgap h.after_blank hmem

end WrittenArgument.WellFormed

/-! ## Whole lists -/

theorem listText_eq (hne : args ≠ []) (trailing : Option String) :
    listText args trailing =
      ",".intercalate (args.map WrittenArgument.text ++ trailing.toList) := by
  cases trailing with
  | none => rw [listText, Option.toList_none, List.append_nil]
  | some blanks =>
    rw [Option.toList_some, String.intercalate_append_of_ne_nil (by simpa using hne) (by simp),
      String.intercalate_singleton, listText]

section WellFormed

variable (hne : args ≠ []) (hargs : ∀ a ∈ args, a.WellFormed)
  (htrailing : ∀ blanks ∈ trailing, ∀ b ∈ blanks.toList, isBlank b = true)

include hne hargs htrailing

/-- **A written list is cut into its arguments**, and an empty piece after a last comma. -/
theorem splitPieces_listText : splitPieces (listText args trailing).toList =
    args.map (·.body.toList) ++ trailing.toList.map fun _ => [] := by
  have hlast : ∀ blanks ∈ trailing.toList, ∀ b ∈ blanks.toList, isBlank b = true :=
    fun blanks hblanks => htrailing blanks (Option.mem_toList.mp hblanks)
  have hcomma : ",".toList = [','] := rfl
  have hpieces : pieces (listText args trailing).toList =
      (args.map WrittenArgument.text ++ trailing.toList).map String.toList := by
    rw [listText_eq hne, String.toList_intercalate, hcomma]
    refine pieces_intercalate (by simp [hne]) (fun cs hcs => ?_) fun cs hcs => ?_
    · obtain ⟨part, hpart, rfl⟩ := List.mem_map.mp hcs
      rcases List.mem_append.mp hpart with hpart | hpart
      · obtain ⟨a, ha, rfl⟩ := List.mem_map.mp hpart
        exact (hargs a ha).commaless_text
      · exact fun hmem => notMem_of_blank (hlast part hpart) (by decide)
          ((exposed_sublist _ _).subset hmem)
    · obtain ⟨part, hpart, rfl⟩ := List.mem_map.mp (List.dropLast_subset _ hcs)
      rcases List.mem_append.mp hpart with hpart | hpart
      · obtain ⟨a, ha, rfl⟩ := List.mem_map.mp hpart
        exact (hargs a ha).balanced_text.run_start
      · exact ScanState.run_start_blanks (hlast part hpart)
  rw [splitPieces, hpieces, List.map_map, List.map_append, List.map_map]
  congr 1
  · exact List.map_congr_left fun a ha => (hargs a ha).trim_text
  · exact List.map_congr_left fun blanks hblanks => trim_eq_nil_iff.mpr (hlast blanks hblanks)

/-- The empty piece after a last comma is no argument, but an empty literal is one. -/
theorem argumentPieces_listText :
    argumentPieces (listText args trailing).toList = args.map (·.body.toList) := by
  have hsplit := splitPieces_listText hne hargs htrailing
  cases trailing with
  | none =>
    rw [Option.toList_none, List.map_nil, List.append_nil] at hsplit
    have hlast : (args.map (·.body.toList)).getLast? ≠ some [] := by
      intro hnil
      obtain ⟨a, ha, hbody⟩ := List.mem_map.mp (List.mem_of_getLast? hnil)
      exact (hargs a ha).body_ne_nil hbody
    rw [argumentPieces_eq, hsplit, if_neg hlast]
  | some blanks =>
    rw [Option.toList_some, List.map_singleton] at hsplit
    rw [argumentPieces_eq, hsplit, List.getLast?_concat, if_pos rfl, List.dropLast_concat]

/-- **A written argument list of any length is read back**: the arguments are the values, each in
its place and none of them missing. -/
theorem arguments_argumentList (hname : '(' ∉ name.toList) :
    arguments (argumentList name args trailing) = args.map (·.value) := by
  have htext : (argumentList name args trailing).toList =
      name.toList ++ '(' :: ((listText args trailing).toList ++ [')']) := by
    simp [argumentList]
  rw [arguments_of_parenthesized (htext ▸ parenthesized?_append hname), argumentValues,
    argumentPieces_listText hne hargs htrailing, List.map_map]
  exact List.map_congr_left fun a ha => (hargs a ha).argumentValue_body

end WellFormed

/-- Marks, commas and parentheses in literals of both kinds, a call that stands bare, and an empty
literal at the end, before a last comma. -/
def mixedArguments : List WrittenArgument :=
  [{ form := .singleQuoted, value := "it's \\ (" }, { form := .bare, value := "f(a, ')')" },
    { before := "\n", form := .doubleQuoted, value := "\",'\\", after := " " },
    { before := " ", form := .singleQuoted, value := "" }]

theorem arguments_argumentList_mixed :
    argumentList "Engine)" mixedArguments (some "\t") =
        "Engine)('it\\'s \\\\ (',f(a, ')'),\n\"\\\",'\\\\\" , '',\t)" ∧
      arguments (argumentList "Engine)" mixedArguments (some "\t")) =
        ["it's \\ (", "f(a, ')')", "\",'\\", ""] := by
  refine ⟨by decide +kernel, arguments_argumentList (by decide) (by decide) ?_ (by decide)⟩
  rintro _ ⟨⟩
  exact List.all_eq_true.mp rfl

end SchemaPlan.Sql
