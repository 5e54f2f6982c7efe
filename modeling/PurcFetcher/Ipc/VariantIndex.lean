import PurcFetcher.Ipc.Message

/-!
# The index of a variant

The index of the alternative travels in front of its value.  `VariantCoder` compares it
with every index from the last one down to one, and takes what is left for the index
zero.  An index that no alternative has is therefore not refused: the bytes behind it are
decoded as the first alternative.
-/

namespace PurcFetcher.Ipc

open Decoder

theorem variantIndex_of_lt {idx last : ℕ} (hforeign : last < idx) : variantIndex idx last = 0 := by
  induction last with
  | zero => rfl
  | succ last ih => grind [variantIndex]

section Variants

variable {count last : ℕ} {types : Fin count → Type}

theorem Variant.construct_zero {alternative : Fin (last + 1) → Fin count}
    (val : types (alternative 0)) :
    Variant.construct 0 val = (⟨0, val⟩ : Variant types alternative) := by
  have hfirst : (List.finRange (last + 1)).find?
      (fun other => decide (alternative other = alternative 0)) = some 0 := by
    rw [List.finRange_succ, List.find?_cons_of_pos]
    exact decide_eq_true rfl
  rw [Variant.construct]
  split
  · next other hfind =>
    obtain rfl := Option.some.inj (hfirst.symm.trans hfind)
    rfl
  · rfl

variable (small : last < 2 ^ 32) (alternative : Fin (last + 1) → Fin count)
  (coders : ∀ type, Coder (types type))

/-- An index that is not smaller than the number of alternatives makes the decoding fail
and leaves the decoder invalid. -/
def RefusesForeignIndex (decoder : Decoder) : Prop :=
  ∀ index rest, decodeNumber 4 decoder = (some index, rest) → last + 1 ≤ index →
    ((Coder.variant small alternative coders).decode decoder).1 = none ∧
      ((Coder.variant small alternative coders).decode decoder).2.isValid = false

/-- The bytes behind such an index are no value of the first alternative, and its coder
leaves the decoder invalid. -/
def FirstRefuses (decoder : Decoder) : Prop :=
  ∀ index rest, decodeNumber 4 decoder = (some index, rest) → last + 1 ≤ index →
    ((coders (alternative 0)).decode rest).1 = none ∧
      ((coders (alternative 0)).decode rest).2.isValid = false

/-- On a buffer of any bytes, a foreign index is refused exactly if the first alternative
refuses what follows it. -/
theorem refusesForeignIndex_iff (decoder : Decoder) :
    RefusesForeignIndex small alternative coders decoder ↔
      FirstRefuses alternative coders decoder := by
  refine forall₄_congr fun index rest hindex hforeign => ?_
  rw [Coder.decode, bind_of_some hindex, variantIndex_of_lt hforeign]
  simp only [Variant.construct_zero]
  cases hrun : (coders (alternative 0)).decode rest with
  | mk result =>
    cases result with
    | none => grind [bind_of_none]
    | some =>
      rw [bind_of_some hrun]
      exact ⟨fun hrefused => absurd hrefused.1 (Option.some_ne_none _),
        fun hrefused => absurd hrefused.1 (Option.some_ne_none _)⟩

end Variants

/-- The types of `Variant<uint32_t, String>`. -/
def numberOrStringTypes : Fin 2 → Type
  | 0 => Block 4
  | 1 => StringValue

def numberOrStringCoders : ∀ type, Coder (numberOrStringTypes type)
  | 0 => .arithmetic unsignedInt
  | 1 => .string

/-- The buffer ends behind the index two. -/
theorem foreign_index_refused : RefusesForeignIndex (by decide) id numberOrStringCoders
      (.start (fun address => [2, 0, 0, 0].getD (address - 8) 0) 8 4) := by
  apply (refusesForeignIndex_iff _ _ _ _).2
  intro index rest hindex _
  obtain rfl := congrArg Prod.snd hindex
  exact ⟨rfl, rfl⟩

/-- A buffer of eight bytes at the address 8: the index two, and the number five. -/
def foreignIndexBuffer : Decoder :=
  .start (fun address => [2, 0, 0, 0, 5, 0, 0, 0].getD (address - 8) 0) 8 8

/-- The number of the first alternative is read, and the decoder stays valid. -/
theorem foreign_index_decoded :
    ¬ RefusesForeignIndex (by decide) id numberOrStringCoders foreignIndexBuffer ∧
      ∃ rest, (Coder.variant (by decide) id numberOrStringCoders).decode foreignIndexBuffer =
        (some ⟨0, [5, 0, 0, 0], rfl⟩, rest) ∧ rest.isValid = true := by
  have hindex : (decodeNumber 4 foreignIndexBuffer).1 = some 2 := by decide +kernel
  have hdecode : ∃ rest, (Coder.variant (by decide) id numberOrStringCoders).decode
      foreignIndexBuffer = (some ⟨0, [5, 0, 0, 0], rfl⟩, rest) ∧ rest.isValid = true :=
    ⟨_, rfl, rfl⟩
  refine ⟨fun hrefuses => ?_, hdecode⟩
  obtain ⟨rest, hrun, -⟩ := hdecode
  have hnone := (hrefuses 2 _ (Prod.ext hindex rfl) (by decide)).1
  exact absurd hnone (Option.some_ne_none _)

end PurcFetcher.Ipc
