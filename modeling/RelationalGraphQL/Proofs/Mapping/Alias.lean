import RelationalGraphQL.Mapping.Alias
import RelationalGraphQL.Proofs.Sql.Placeholder
import Mathlib.Data.List.Perm.Subperm
import Mathlib.Data.List.Nodup

/-!
# Aliases

An alias is a lower-case letter, with a number behind it if need be. So it can stand in a statement as it is, and it is
none of those given out before.
-/

namespace RelationalGraphQL.Mapping

theorem isLower_toLower {c : Char} (hc : c.isAlpha) : c.toLower.isLower := by
  unfold Char.toLower
  split
  · rename_i hupper
    delta Char.isLower
    simp only [Bool.and_eq_true, decide_eq_true_eq, UInt32.le_iff_toNat_le, ge_iff_le] at hupper ⊢
    simp only [↓Char.isValue, Char.reduceVal, UInt32.reduceToNat, Char.toNat_val, UInt32.reduceSub, UInt32.toNat_add,
      Nat.reducePow] at hupper ⊢
    omega
  · rename_i hupper
    unfold Char.isAlpha at hc
    rw [Bool.or_eq_true] at hc
    rcases hc with hc | hc
    · unfold Char.isUpper at hc
      exact absurd (by simpa using hc) hupper
    · exact hc

theorem toString_injective {m n : Nat} (heq : toString m = toString n) : m = n := by
  have hdigits : Nat.toDigits 10 m = Nat.toDigits 10 n := by simpa using congrArg String.toList heq
  rw [← Nat.ofDigitChars_ten_toDigits (n := m), hdigits, Nat.ofDigitChars_ten_toDigits]

theorem initial_toList (name : String) : ∃ c : Char, (initial name).toList = [c] ∧ c.isLower := by
  unfold initial
  split
  · rename_i c hfind
    exact ⟨c.toLower, by simp [Char.toString], isLower_toLower (List.find?_some hfind)⟩
  · exact ⟨'t', by decide, by decide⟩

theorem initial_isAlias (name : String) : Sql.isAlias (initial name) := by
  obtain ⟨c, htext, hc⟩ := initial_toList name
  simp [Sql.isAlias, htext, hc]

theorem freshAlias_eq (taken : List String) (name : String) :
    freshAlias taken name = initial name ∨ ∃ n : Nat, freshAlias taken name = initial name ++ toString (n + 2) := by
  unfold freshAlias
  dsimp only
  split
  · cases hfind : List.find? (fun candidate => !taken.contains candidate)
      ((List.range (taken.length + 1)).map fun n : Nat => initial name ++ toString (n + 2)) with
    | none => exact .inl rfl
    | some candidate =>
      obtain ⟨n, -, hn⟩ := List.mem_map.1 (List.mem_of_find?_eq_some hfind)
      exact .inr ⟨n, hn.symm⟩
  · exact .inl rfl

theorem freshAlias_isAlias (taken : List String) (name : String) : Sql.isAlias (freshAlias taken name) := by
  rcases freshAlias_eq taken name with heq | ⟨n, heq⟩ <;> rw [heq]
  · exact initial_isAlias name
  · obtain ⟨c, htext, hc⟩ := initial_toList name
    have hdigits : (toString (n + 2)).toList.all Char.isDigit :=
      List.all_eq_true.2 fun d hd => Sql.isDigit_of_mem_toString hd
    rw [Sql.isAlias, String.toList_append, htext, List.singleton_append]
    simp only [hc, hdigits, Bool.and_self]

/-- Among one more candidate than aliases are taken, one is free. -/
theorem freshAlias_notMem (taken : List String) (name : String) : freshAlias taken name ∉ taken := by
  unfold freshAlias
  dsimp only
  split
  · set candidates := (List.range (taken.length + 1)).map fun n : Nat => initial name ++ toString (n + 2) with hcandidates
    have hnodup : candidates.Nodup := by
      refine List.Nodup.map ?_ List.nodup_range
      intro m n hmn
      have hnumber : toString (m + 2) = toString (n + 2) := by simpa using hmn
      exact Nat.add_right_cancel (toString_injective hnumber)
    cases hfind : candidates.find? fun candidate => !taken.contains candidate with
    | some candidate => simpa using List.find?_some hfind
    | none =>
      have hsubset : candidates ⊆ taken := by
        intro candidate hcandidate
        simpa using List.find?_eq_none.1 hfind candidate hcandidate
      have hlength := (List.subperm_of_subset hnodup hsubset).length_le
      have hcount : candidates.length = taken.length + 1 := by simp [hcandidates]
      omega
  · rename_i hfree
    simpa using hfree

end RelationalGraphQL.Mapping
