import TabCompletion.Proofs.Completion.Candidates
import TabCompletion.Proofs.Line.RoundTrip
import TabCompletion.Proofs.Number.Rounding
import TabCompletion.Proofs.Shell.Asked

/-!
# The order of integers

Choices that are all integers are ordered once, as doubles, and marked as being in order. Nothing later
orders them again: a table is laid out beside them, quoting changes no integer, and display order leaves
them alone. Two integers may be one double; these keep the order that they were listed in.

Main statement: `integers_in_order`.
-/

namespace TabCompletion

open Sorting (StablyOrdered)

/-- The integer that a value is, if it is one. -/
def ChoiceValue.int? : ChoiceValue → Option Int
  | int i => some i
  | _ => none

namespace Completions

def integers (choices : List Choice) : List Int := choices.filterMap (·.value.int?)

variable {choices left shown : List Choice} {c : Completions} {host : Host}

def AllIntegers (choices : List Choice) : Prop := ∀ c ∈ choices, ∃ i, c.value = .int i

theorem AllIntegers.isNumber (h : AllIntegers choices) : ∀ c ∈ choices, c.value.IsNumber := by
  intro c hc
  obtain ⟨i, hi⟩ := h c hc
  rw [hi]
  exact ⟨_, rfl, Binary64.ofInt_ne_nan i⟩

theorem rank_int (i : Int) : (ChoiceValue.int i).rank = Binary64.placeOf i := by
  show ((some (Binary64.ofInt i)).bind Binary64.orderKey?).getD 0 = _
  rw [Option.bind_some, Binary64.orderKey?_ofInt, Option.getD_some]

/-- **Integers are in order once they are ordered as doubles** just if of any two that were not, the
doubles are in another order too. -/
theorem integers_pairwise_iff (h : AllIntegers left)
    (hshown : StablyOrdered (·.value.rank) left shown) :
    (integers shown).Pairwise (· ≤ ·) ↔
      (integers left).Pairwise fun i j =>
        i ≤ j ∨ (Binary64.ofInt j).below (Binary64.ofInt i) = true := by
  rw [integers, integers, List.pairwise_filterMap, List.pairwise_filterMap, hshown.pairwise_iff]
  · refine List.Pairwise.iff_of_mem ?_
    intro a b ha hb
    obtain ⟨i, hi⟩ := h a ha
    obtain ⟨j, hj⟩ := h b hb
    simp [hi, hj, ChoiceValue.int?, rank_int, Binary64.below_ofInt_iff]
  · -- Doubles never put a larger integer first: rounding keeps the order.
    intro a ha b hb hlt
    obtain ⟨i, hi⟩ := h a ha
    obtain ⟨j, hj⟩ := h b hb
    simp only [hi, hj, rank_int, ChoiceValue.int?, Option.some.injEq, forall_eq'] at hlt ⊢
    exact Int.not_lt.mp fun hji => absurd (Binary64.placeOf_mono (Int.le_of_lt hji)) (not_le.mpr hlt)

/-- Doubles put all integers up to `2^53` in their order. -/
theorem pairwise_of_natAbs_le {is : List Int} (h : ∀ i ∈ is, i.natAbs ≤ 2 ^ 53) :
    is.Pairwise fun i j => i ≤ j ∨ (Binary64.ofInt j).below (Binary64.ofInt i) = true := by
  refine List.Pairwise.imp_of_mem ?_ (List.pairwise_of_forall fun _ _ => trivial)
  intro i j hi hj _
  rcases Int.lt_or_le j i with hlt | hle
  · exact Or.inr (Binary64.below_ofInt_of_lt (h j hj) (h i hi) hlt)
  · exact Or.inl hle

/-! ## What is done to them later -/

theorem isBlank_of_isDigit {c : Char} (h : c.isDigit = true) : Text.isBlank c = false := by
  have hcode : 48 ≤ c.toNat ∧ c.toNat ≤ 57 := by
    simpa [Char.isDigit, UInt32.le_iff_toNat_le] using h
  simp only [Text.isBlank, Bool.or_eq_false_iff, Bool.and_eq_false_iff, decide_eq_false_iff_not,
    beq_eq_false_iff_ne]
  omega

/-- Integers are written without white space, so they need no quotes. -/
theorem quoteCandidate_int (i : Int) : Line.quoteCandidate (toString i) = toString i := by
  have hnat (n : Nat) : ∀ c ∈ n.repr.toList, Text.isBlank c = false := by
    intro c hc
    rw [Nat.repr_eq_ofList_toDigits, String.toList_ofList] at hc
    exact isBlank_of_isDigit (Nat.isDigit_of_mem_toDigits (by decide : 0 < 10) (by decide) hc)
  refine Line.quoteCandidate_of_not_blank ?_
  intro c hc
  rw [Int.toString_eq_repr, Int.repr_eq_if] at hc
  split at hc
  · exact hnat _ c hc
  · rcases List.mem_append.mp (String.toList_append .. ▸ hc) with hminus | hdigits
    · rw [List.mem_singleton.mp hminus]
      decide
    · exact hnat _ c hdigits

theorem written_integers (h : AllIntegers shown) (hitems : c.items = shown.map itemOf) :
    c.written Line.quoteCandidate = c := by
  have hsame : (c.items.map fun i => { i with value := Line.quoteCandidate i.value }) = c.items := by
    rw [hitems, List.map_map]
    refine List.map_congr_left ?_
    intro a ha
    obtain ⟨i, hi⟩ := h a ha
    simp only [Function.comp_apply, itemOf, hi, ChoiceValue.display, quoteCandidate_int]
  rw [written, hsame]

end Completions

namespace Scope

variable {scope : Scope} {d : ArgDef Grammar} {request : CompletionRequest} {choices : List Choice}

open Completions (AllIntegers integers remaining itemOf)

/-- What completing an argument gives whose choices are all integers. -/
theorem completeArg_integers (hlists : scope.Lists d request.text choices)
    (hall : AllIntegers choices) :
    ∃ c shown, scope.completeArg d request = .ok c ∧ c.sorted = true ∧ c.items = shown.map itemOf ∧
      StablyOrdered (·.value.rank) (remaining choices request.text (scope.usedFor d)) shown := by
  have hnumeric : Completions.allNumeric choices = true :=
    Completions.allNumeric_iff.mpr fun c hc => (hall.isNumber c hc).isNumeric
  simp only [completeArg, hlists.candidates_eq, Completions.ofChoices_eq, hnumeric]
  refine ⟨_, _, rfl, Completions.withTable_sorted rfl _ _,
    Completions.withTable_items_of_sorted rfl _ _, ?_⟩
  exact (Completions.orderChoices_numbers hall.isNumber).filter _

end Scope

namespace CommandSet

open Completions (AllIntegers integers remaining itemOf)

/-- **Integers in their order.** Where the listed choices of an argument are all integers, its
candidates are marked as in display order: they are those choices that remain, and they do not decrease
just if, of any two remaining integers that are listed the larger first, the doubles nearest to them
differ. So it is where none is beyond `2^53`. Display order leaves the candidates as they are, and if
there are any, they are what completing a line comes to that asks for the argument. -/
theorem integers_in_order {scope : Scope} {d : ArgDef Grammar} {request : CompletionRequest}
    {choices : List Choice} (hlists : scope.Lists d request.text choices)
    (hall : AllIntegers choices) :
    let left := remaining choices request.text (scope.usedFor d)
    ∃ c shown, scope.completeArg d request = .ok c ∧ c.sorted = true ∧
      c.items = shown.map itemOf ∧ shown.Perm left ∧
      ((integers shown).Pairwise (· ≤ ·) ↔ (integers left).Pairwise fun i j =>
        i ≤ j ∨ (Binary64.ofInt j).below (Binary64.ofInt i) = true) ∧
      ((∀ i ∈ integers left, i.natAbs ≤ 2 ^ 53) → (integers shown).Pairwise (· ≤ ·)) ∧
      c.displayOrder = c ∧
      ∀ (set : CommandSet) (host : Host) (line : String) (pos : Nat) (down : Descent) (p : Progress),
        set.Asks line pos down p → down.scope host = scope → p.arg = d →
        requestAt line pos = request → c.items ≠ [] →
          (set.complete host line pos).1.completions = c := by
  intro left
  obtain ⟨c, shown, hc, hsorted, hitems, hordered⟩ := Scope.completeArg_integers hlists hall
  have hleft : AllIntegers left := fun a ha => hall a (List.mem_of_mem_filter ha)
  have hshown : AllIntegers shown := fun a ha => hleft a (hordered.perm.mem_iff.mp ha)
  have hiff := Completions.integers_pairwise_iff hleft hordered
  refine ⟨c, shown, hc, hsorted, hitems, hordered.perm, hiff, ?_,
    Completions.displayOrder_of_sorted hsorted, ?_⟩
  · exact fun hsmall => hiff.mpr (Completions.pairwise_of_natAbs_le hsmall)
  · rintro set host line pos down p hasks rfl rfl rfl hsome
    exact (hasks.complete_eq hc hsome).trans (Completions.written_integers hshown hitems)

def choicesOf (is : List Int) : List Choice := is.map fun i => { value := .int i }

def listening (ports : List Int) : GrammarSpec :=
  { prog := "listen"
    items := [.arg { name := some "port", choices := some (.fixed (choicesOf ports)) }] }

/-- The candidates of three ports in their order. -/
def portsInOrder : Completions :=
  { items := [⟨"-3", none⟩, ⟨"9", none⟩, ⟨"10", none⟩], sorted := true }

theorem negative_port_comes_first :
    ∃ g down p shown, (listening [10, 9, -3]).build = .ok g ∧
      (⟨[g]⟩ : CommandSet).Asks "listen " 7 down p ∧
      (down.scope {}).Lists p.arg (requestAt "listen " 7).text (choicesOf [10, 9, -3]) ∧
      AllIntegers (choicesOf [10, 9, -3]) ∧
      (down.scope {}).completeArg p.arg (requestAt "listen " 7) = .ok portsInOrder ∧
      portsInOrder.items = shown.map itemOf ∧ (integers shown).Pairwise (· ≤ ·) ∧
      ((⟨[g]⟩ : CommandSet).complete {} "listen " 7).1.completions = portsInOrder ∧
      portsInOrder.displayOrder = portsInOrder := by
  obtain ⟨g, down, p, hbuild, hasks, hlists, hleft, heval⟩ :
      ∃ g down p, (listening [10, 9, -3]).build = .ok g ∧
        (⟨[g]⟩ : CommandSet).Asks "listen " 7 down p ∧
        (down.scope {}).Lists p.arg (requestAt "listen " 7).text (choicesOf [10, 9, -3]) ∧
        integers (remaining (choicesOf [10, 9, -3]) (requestAt "listen " 7).text
          ((down.scope {}).usedFor p.arg)) = [10, 9, -3] ∧
        (down.scope {}).completeArg p.arg (requestAt "listen " 7) = .ok portsInOrder :=
    ⟨_, _, _, rfl, ⟨⟨_, rfl, rfl⟩, rfl⟩, .fixed rfl rfl, by decide +kernel, by decide +kernel⟩
  have hall : AllIntegers (choicesOf [10, 9, -3]) := by
    simp [AllIntegers, choicesOf]
  obtain ⟨c, shown, hc, -, hitems, -, -, hordered, hdisplay, hline⟩ := integers_in_order hlists hall
  cases heval.symm.trans hc
  have hcomplete := hline ⟨[g]⟩ {} "listen " 7 down p hasks rfl rfl rfl (by decide)
  refine ⟨g, down, p, shown, hbuild, hasks, hlists, hall, heval, hitems, hordered ?_, hcomplete,
    hdisplay⟩
  rw [hleft]
  decide

/-- **Two integers may be one double**, and then the larger one may come first. -/
theorem larger_port_comes_first :
    (∃ g, (listening [2 ^ 53 + 1, 2 ^ 53]).build = .ok g ∧
      (⟨[g]⟩ : CommandSet).complete {} "listen " 7 =
        (⟨7, { items := [⟨"9007199254740993", none⟩, ⟨"9007199254740992", none⟩], sorted := true }⟩,
          none)) ∧
    ¬∀ (set : CommandSet) (host : Host) (line : String) (pos : Nat) (down : Descent) (p : Progress)
        (numbers : List Int),
      (∀ i ∈ numbers, -2 ^ 63 ≤ i ∧ i < 2 ^ 63) → set.Asks line pos down p →
      (down.scope host).Lists p.arg (requestAt line pos).text (choicesOf numbers) →
      ∃ shown ⊆ numbers,
        (set.complete host line pos).1.completions.displayOrder.values = shown.map toString ∧
          shown.Pairwise (· ≤ ·) := by
  obtain ⟨g, down, p, hbuild, hasks, hlists, heval⟩ :
      ∃ g down p, (listening [2 ^ 53 + 1, 2 ^ 53]).build = .ok g ∧
        (⟨[g]⟩ : CommandSet).Asks "listen " 7 down p ∧
        (down.scope {}).Lists p.arg (requestAt "listen " 7).text (choicesOf [2 ^ 53 + 1, 2 ^ 53]) ∧
        (⟨[g]⟩ : CommandSet).complete {} "listen " 7 =
          (⟨7, { items := [⟨"9007199254740993", none⟩, ⟨"9007199254740992", none⟩], sorted := true }⟩,
            none) :=
    ⟨_, _, _, rfl, ⟨⟨_, rfl, rfl⟩, rfl⟩, .fixed rfl rfl, by decide +kernel⟩
  refine ⟨⟨g, hbuild, heval⟩, ?_⟩
  intro h
  obtain ⟨shown, hfrom, hvalues, hordered⟩ := h ⟨[g]⟩ {} "listen " 7 down p [2 ^ 53 + 1, 2 ^ 53]
    (by decide) hasks hlists
  rw [heval] at hvalues
  rw [show Completions.values _ = ["9007199254740993", "9007199254740992"] from rfl] at hvalues
  -- Two integers are shown, each of them one of the two ports; only one way gives these texts.
  obtain ⟨i, j, rfl⟩ : ∃ i j, shown = [i, j] :=
    List.length_eq_two.mp (by simpa using (congrArg List.length hvalues).symm)
  have hi : i = 2 ^ 53 + 1 ∨ i = 2 ^ 53 := by simpa using hfrom (List.mem_cons_self ..)
  have hj : j = 2 ^ 53 + 1 ∨ j = 2 ^ 53 := by
    simpa using hfrom (List.mem_cons_of_mem _ (List.mem_cons_self ..))
  rcases hi with rfl | rfl <;> rcases hj with rfl | rfl
  · exact absurd hvalues (by decide +kernel)
  · exact absurd hordered (by decide)
  · exact absurd hvalues (by decide +kernel)
  · exact absurd hvalues (by decide +kernel)

end CommandSet

end TabCompletion
