import Mathlib.Data.Int.Order.Basic
import TabCompletion.Completion.Resolve
import TabCompletion.Grammar.Builder
import TabCompletion.Proofs.Sorting

/-!
# The candidates for a value

A source that lists choices is asked for all of them; offered are those that begin with the word under
the cursor and are not among the values given already (`Completions.remaining`). The order is decided
in two places. Choices that are all numbers are put in the order of their numbers before any is left
out, and stay in it. Others keep the order of the source, unless a table is laid out: then they are
ordered by their texts (`Completions.InTextOrder`).

Main statement: `completeArg_exact`.
-/

namespace TabCompletion

open Sorting (StablyOrdered)

/-! ## The order of numbers -/

namespace ChoiceValue

variable {v w : ChoiceValue}

/-- A number that has a place among the others. -/
def IsNumber (v : ChoiceValue) : Prop := ∃ x, v.number? = some x ∧ x ≠ .nan

/-- What a number is ordered by. -/
def rank (v : ChoiceValue) : Int := (v.number?.bind Binary64.orderKey?).getD 0

theorem IsNumber.isNumeric (h : v.IsNumber) : v.isNumeric = true := by
  obtain ⟨x, hx, -⟩ := h
  cases v with
  | text s => contradiction
  | int i | float y => rfl

theorem IsNumber.orderKey? (h : v.IsNumber) : v.number?.bind Binary64.orderKey? = some v.rank := by
  obtain ⟨x, hx, hnan⟩ := h
  rw [rank, hx, Option.bind_some]
  cases x with
  | nan => contradiction
  | infinite negative => rfl
  | finite negative m e => rfl

/-- **Numbers are below one another as their ranks are.** -/
theorem below_iff (hv : v.IsNumber) (hw : w.IsNumber) : v.below w = true ↔ v.rank < w.rank := by
  have hkv := hv.orderKey?
  have hkw := hw.orderKey?
  obtain ⟨x, hx, -⟩ := hv
  obtain ⟨y, hy, -⟩ := hw
  rw [hx, Option.bind_some] at hkv
  rw [hy, Option.bind_some] at hkw
  simp [below, hx, hy, Binary64.below, hkv, hkw]

end ChoiceValue

def Choice.textKey (c : Choice) : List Char := Text.lowercase c.value.display

namespace Completions

variable {c : Completions} {choices left shown : List Choice} {host : Host} {text : String}
  {used : List String}

theorem allNumeric_iff : allNumeric choices = true ↔ ∀ c ∈ choices, c.value.isNumeric = true :=
  List.all_eq_true

theorem orderChoices_perm (choices : List Choice) : (orderChoices choices).Perm choices := by
  unfold orderChoices
  split
  · exact Sorting.stableSort_perm _ choices
  · exact List.Perm.refl _

/-- Choices that are all numbers are put in the order of their numbers. -/
theorem orderChoices_numbers (h : ∀ c ∈ choices, c.value.IsNumber) :
    StablyOrdered (·.value.rank) choices (orderChoices choices) := by
  rw [orderChoices, if_pos (allNumeric_iff.mpr fun c hc => (h c hc).isNumeric)]
  apply Sorting.stableSort_stablyOrdered
  intro a ha b hb
  exact ChoiceValue.below_iff (h a ha) (h b hb)

/-! ## What is left of the choices -/

/-- The choices that begin with `text` and are not among the values given already. -/
def remaining (choices : List Choice) (text : String) (used : List String) : List Choice :=
  choices.filter fun c => decide (text.toList <+: c.value.display.toList ∧ c.value.display ∉ used)

theorem filter_isOpen : choices.filter (isOpen text used) = remaining choices text used := by
  apply List.filter_congr
  intro c hc
  rw [Bool.eq_iff_iff, decide_eq_true_iff, isOpen, Text.beginsWith, Bool.and_eq_true,
    List.isPrefixOf_iff_prefix, and_comm]
  simp

def ofItems (choices : List Choice) (sorted : Bool) : Completions :=
  { items := choices.map itemOf, sorted }

theorem ofChoices_eq (choices : List Choice) (text : String) (used : List String) :
    ofChoices choices text used =
      ofItems (remaining (orderChoices choices) text used) (allNumeric choices) := by
  rw [ofChoices, filter_isOpen, ofItems]

/-! ## The order of texts -/

/-- Several choices, not too many, that are shown with descriptions: the first one has one. -/
def Described (host : Host) (choices : List Choice) : Prop :=
  2 ≤ choices.length ∧ choices.length ≤ host.settings.maxItems ∧
    choices.head?.any (·.description.isSome) = true

/-- `shown` are the choices `left` as they are shown: in the order of their texts in lower case if
they are shown with descriptions, else as they come. -/
structure InTextOrder (host : Host) (left shown : List Choice) : Prop where
  described : Described host left → StablyOrdered Choice.textKey left shown
  plain : ¬ Described host left → shown = left

theorem InTextOrder.perm (h : InTextOrder host left shown) : shown.Perm left := by
  by_cases hd : Described host left
  · exact (h.described hd).perm
  · rw [h.plain hd]

/-- Laying out a table leaves candidates alone that are in order. -/
theorem withTable_items_of_sorted (h : c.sorted = true) (dest : String) (header : Option String) :
    (c.withTable host dest header).items = c.items := by
  unfold withTable
  extract_lets described items
  have hitems : items = c.items := by
    show c.displayOrder.items = c.items
    rw [displayOrder, if_pos h]
  split
  · exact hitems
  · rfl

theorem withTable_sorted (h : c.sorted = true) (dest : String) (header : Option String) :
    (c.withTable host dest header).sorted = true := by
  unfold withTable
  extract_lets described items
  split
  · rfl
  · exact h

/-- Without descriptions no table is laid out. -/
theorem withTable_of_plain (h : ∀ i ∈ c.items, i.description = none) (dest : String)
    (header : Option String) : c.withTable host dest header = c := by
  have hplain : c.items.head?.any (·.description.isSome) = false := by
    rw [Option.any_eq_false]
    intro i hi
    simp [h i (List.mem_of_head? hi)]
  simp [withTable, hplain]

/-- Several candidates with descriptions are put in order and marked so, if they are not too many. -/
theorem withTable_of_described (h : ∀ i ∈ c.items, i.description.isSome = true)
    (hseveral : 2 ≤ c.items.length) (hmost : c.items.length ≤ host.settings.maxItems) (dest : String)
    (header : Option String) :
    (c.withTable host dest header).sorted = true ∧
      (c.withTable host dest header).items = c.displayOrder.items := by
  have hhead : c.items.head?.any (·.description.isSome) = true := by
    cases hitems : c.items with
    | nil => simp [hitems] at hseveral
    | cons i rest => simp [h i (by simp [hitems])]
  have hmany : (1 < c.items.length && c.items.length ≤ host.settings.maxItems &&
      c.items.head?.any (·.description.isSome)) = true := by
    simp [hhead, hmost]
    omega
  rw [withTable, if_pos hmany]
  exact ⟨rfl, rfl⟩

theorem sortItems_map (choices : List Choice) :
    sortItems (choices.map itemOf) =
      (Sorting.stableSortByText Choice.textKey choices).map itemOf :=
  (Sorting.map_stableSortByText itemOf (fun i => Text.lowercase i.value) choices).symm

/-- **Laying out a table puts other candidates in the order of their texts.** -/
theorem withTable_ofItems (host : Host) (left : List Choice) (dest : String)
    (header : Option String) :
    ∃ shown, ((ofItems left false).withTable host dest header).items = shown.map itemOf ∧
      InTextOrder host left shown := by
  have hdescribed : (1 < (ofItems left false).items.length &&
      (ofItems left false).items.length ≤ host.settings.maxItems &&
      (ofItems left false).items.head?.any (·.description.isSome)) = true ↔
        Described host left := by
    have hhead : (left.map itemOf).head?.any (·.description.isSome) =
        left.head?.any (·.description.isSome) := by
      cases left <;> rfl
    simp only [ofItems, List.length_map, Bool.and_eq_true, decide_eq_true_eq, and_assoc, hhead]
    exact Iff.rfl
  by_cases hd : Described host left
  · refine ⟨Sorting.stableSortByText Choice.textKey left, ?_, ?_, fun h => absurd hd h⟩
    · rw [withTable, if_pos (hdescribed.mpr hd)]
      exact sortItems_map left
    · intro _
      exact Sorting.stableSortByText_stablyOrdered _ _
  · refine ⟨left, ?_, fun h => absurd h hd, fun _ => rfl⟩
    rw [withTable, if_neg (mt hdescribed.mp hd)]
    rfl

end Completions

/-! ## What the source of an argument gives -/

namespace Scope

variable {scope : Scope} {d : ArgDef Grammar} {request : CompletionRequest} {choices : List Choice}
  {failure : SourceFailure}

/-- What a source is given that wants the values so far, or does not. -/
def given (scope : Scope) (d : ArgDef Grammar) (text : String) (wants : Bool) : Option ArgTokens :=
  if wants then some (scope.tokensFor d.dest text) else none

def usedFor (scope : Scope) (d : ArgDef Grammar) : List String := (scope.values.get? d.dest).getD []

/-- The argument's choices are listed: they are its subcommands, a fixed list, or what a provider
gives. -/
inductive Lists (scope : Scope) (d : ArgDef Grammar) (text : String) : List Choice → Prop where
  | subcommands {subs : List (String × Grammar)} (h : d.subcommands? = some subs) :
      Lists scope d text (subs.map fun p => .ofText p.1)
  | fixed {choices : List Choice} (hsub : d.subcommands? = none)
      (h : d.choices = some (.fixed choices)) : Lists scope d text choices
  | provider {wants : Bool} {provide : Option ArgTokens → Offer} {choices : List Choice}
      (hsub : d.subcommands? = none) (h : d.choices = some (.provider wants provide))
      (hoffer : provide (scope.given d text wants) = .ok choices) : Lists scope d text choices

/-- A completer gives the argument's candidates itself. -/
inductive Completes (scope : Scope) (d : ArgDef Grammar) (request : CompletionRequest) :
    List Choice → Prop where
  | completer {wants : Bool} {complete : CompletionRequest → Option ArgTokens → Offer}
      {choices : List Choice} (hsub : d.subcommands? = none)
      (h : d.choices = some (.completer wants complete))
      (hoffer : complete request (scope.given d request.text wants) = .ok choices) :
      Completes scope d request choices

theorem Lists.candidates_eq (h : scope.Lists d request.text choices) :
    scope.candidates d request = .ok (.ofChoices choices request.text (scope.usedFor d)) := by
  unfold candidates
  cases h with
  | subcommands h => simp only [h, usedFor]
  | fixed hsub h => simp only [hsub, h, usedFor]
  | provider hsub h hoffer =>
      rw [given] at hoffer
      simp only [hsub, h, hoffer, Except.map, usedFor]

theorem Completes.candidates_eq (h : scope.Completes d request choices) :
    scope.candidates d request = .ok (.ofItems choices false) := by
  unfold candidates
  cases h with
  | completer hsub h hoffer =>
      rw [given] at hoffer
      simp only [hsub, h, hoffer, Except.map, Completions.ofItems]

/-- **The candidates for a value are exact.** Where the choices of an argument are listed, the
candidates are the choices that begin with the word under the cursor and are not among the values of
the argument's destination, each as often as it is listed, with its text and its description. If all
the listed choices are numbers, the candidates are in the order of their numbers; if one of them is no
number, they are in the order of their texts where they are shown with descriptions, and in the
order of the list elsewhere. Candidates with one number or one text in lower case are in the order of
the list. What a completer gives are the candidates, in its own order or that of their texts. -/
theorem completeArg_exact (scope : Scope) (d : ArgDef Grammar) (request : CompletionRequest) :
    (∀ choices, scope.Lists d request.text choices →
      ∃ c shown, scope.completeArg d request = .ok c ∧ c.items = shown.map Completions.itemOf ∧
        shown.Perm (Completions.remaining choices request.text (scope.usedFor d)) ∧
        ((∀ choice ∈ choices, choice.value.IsNumber) →
          StablyOrdered (·.value.rank)
            (Completions.remaining choices request.text (scope.usedFor d)) shown) ∧
        ((∃ choice ∈ choices, choice.value.isNumeric = false) →
          Completions.InTextOrder scope.host
            (Completions.remaining choices request.text (scope.usedFor d)) shown)) ∧
    ∀ choices, scope.Completes d request choices →
      ∃ c shown, scope.completeArg d request = .ok c ∧ c.items = shown.map Completions.itemOf ∧
        Completions.InTextOrder scope.host choices shown := by
  constructor
  · intro choices hlists
    simp only [completeArg, hlists.candidates_eq, Completions.ofChoices_eq]
    cases hnumeric : Completions.allNumeric choices with
    | true =>
        refine ⟨_, _, rfl, Completions.withTable_items_of_sorted rfl _ _, ?_, ?_, ?_⟩
        · exact (Completions.orderChoices_perm choices).filter _
        · intro hnumbers
          exact (Completions.orderChoices_numbers hnumbers).filter _
        · rintro ⟨choice, hmem, htext⟩
          rw [Completions.allNumeric_iff.mp hnumeric choice hmem] at htext
          contradiction
    | false =>
        have horder : Completions.orderChoices choices = choices := by
          rw [Completions.orderChoices, hnumeric, if_neg Bool.false_ne_true]
        rw [horder]
        obtain ⟨shown, hitems, hshown⟩ := Completions.withTable_ofItems scope.host
          (Completions.remaining choices request.text (scope.usedFor d)) d.dest d.descriptiveHeader
        refine ⟨_, shown, rfl, hitems, hshown.perm, ?_, fun _ => hshown⟩
        intro hnumbers
        rw [Completions.allNumeric_iff.mpr fun c hc => (hnumbers c hc).isNumeric] at hnumeric
        contradiction
  · intro choices hcompletes
    obtain ⟨shown, hitems, hshown⟩ :=
      Completions.withTable_ofItems scope.host choices d.dest d.descriptiveHeader
    simp only [completeArg, hcompletes.candidates_eq]
    exact ⟨_, shown, rfl, hitems, hshown⟩

/-- An argument whose choices are numbers, two of them the same number. -/
def sizes : ArgDef Grammar :=
  ArgSpec.toDef
    { name := some "size"
      choices := some (.fixed
        [⟨.int 10, none⟩, ⟨.float (.ofDecimal false 95 (-1)), none⟩, ⟨.int 2, none⟩,
          ⟨.float (.ofInt 10), some "the same"⟩]) } ['-'] none

/-- The surroundings in which one size was given already. -/
def afterSizeTwo : Scope := { host := {}, parents := .empty, values := ⟨[("size", ["2"])]⟩ }

theorem smaller_size_comes_first :
    ∃ c shown,
      afterSizeTwo.completeArg sizes { text := "", line := "cmd 2 ", begidx := 6, endidx := 6 } =
        .ok c ∧
      c.items = shown.map Completions.itemOf ∧
      StablyOrdered (·.value.rank)
        [⟨.int 10, none⟩, ⟨.float (.ofDecimal false 95 (-1)), none⟩,
          ⟨.float (.ofInt 10), some "the same"⟩] shown ∧
      c.values = ["9.5", "10", "10.0"] := by
  obtain ⟨choices, c₀, hlists, hnumbers, hleft, heval, hvalues⟩ :
      ∃ choices c₀, afterSizeTwo.Lists sizes "" choices ∧
        (∀ choice ∈ choices, choice.value.IsNumber) ∧
        Completions.remaining choices "" (afterSizeTwo.usedFor sizes) =
          [⟨.int 10, none⟩, ⟨.float (.ofDecimal false 95 (-1)), none⟩,
            ⟨.float (.ofInt 10), some "the same"⟩] ∧
        afterSizeTwo.completeArg sizes
          { text := "", line := "cmd 2 ", begidx := 6, endidx := 6 } = .ok c₀ ∧
        c₀.values = ["9.5", "10", "10.0"] := by
    refine ⟨_, _, .fixed rfl rfl, ?_, by decide +kernel, rfl, by decide +kernel⟩
    simp only [List.forall_mem_cons]
    exact ⟨⟨_, rfl, by decide⟩, ⟨_, rfl, by decide⟩, ⟨_, rfl, by decide⟩, ⟨_, rfl, by decide⟩,
      nofun⟩
  obtain ⟨c, shown, hc, hitems, -, hordered, -⟩ :=
    (completeArg_exact afterSizeTwo sizes
      { text := "", line := "cmd 2 ", begidx := 6, endidx := 6 }).1 choices hlists
  have hsame : c = c₀ := by
    rw [heval] at hc
    exact (Except.ok.inj hc).symm
  have hshown := hordered hnumbers
  rw [hleft] at hshown
  exact ⟨c, shown, hc, hitems, hshown, hsame ▸ hvalues⟩

end Scope

end TabCompletion
