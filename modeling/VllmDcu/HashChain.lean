import Mathlib.Data.List.Induction

/-! Hash chains. Every link hashes its parent digest together with a payload;
`digest` is the last link and `digests` are all of them. A collision-free hash
makes the digest of a chain determine the chain, at equal length from any common
root and at any length from a root that the hash never returns. -/
namespace VllmDcu.HashChain
open List

variable {Digest Payload : Type} (hash : Digest × Payload → Digest)

def digest (parent : Digest) (chain : List Payload) : Digest :=
  chain.foldl (fun parent payload => hash (parent, payload)) parent

def digests : Digest → List Payload → List Digest
  | _, [] => []
  | parent, payload :: rest => hash (parent, payload) :: digests (hash (parent, payload)) rest

variable (parent : Digest)

@[simp] theorem digest_nil : digest hash parent [] = parent := rfl

@[simp] theorem digest_cons (payload : Payload) (rest : List Payload) :
    digest hash parent (payload :: rest) = digest hash (hash (parent, payload)) rest := rfl

@[simp] theorem digest_append (first second : List Payload) :
    digest hash parent (first ++ second) = digest hash (digest hash parent first) second := by
  simp [digest]

variable (chain : List Payload)

@[simp] theorem digests_length : (digests hash parent chain).length = chain.length := by
  induction chain generalizing parent with
  | nil => rfl
  | cons payload rest ih => simp [digests, ih]

theorem digests_append (first second : List Payload) :
    digests hash parent (first ++ second) =
      digests hash parent first ++ digests hash (digest hash parent first) second := by
  induction first generalizing parent with
  | nil => rfl
  | cons payload rest ih => simp [digests, ih]

theorem digests_getLast? :
    (digests hash parent chain).getLast?.getD parent = digest hash parent chain := by
  rcases eq_nil_or_concat chain with rfl | ⟨init, payload, rfl⟩
  · rfl
  · simp [digests_append, digests]

theorem digests_getElem? (index : Nat) (inside : index < chain.length) :
    (digests hash parent chain)[index]? = some (digest hash parent (chain.take (index + 1))) := by
  induction chain generalizing parent index with
  | nil => simp at inside
  | cons payload rest ih =>
    cases index with
    | zero => simp [digests]
    | succ index => simpa [digests] using ih _ index (by simpa using inside)

variable {hash}

theorem digest_injective_of_length (collisionFree : Function.Injective hash) (parent : Digest)
    (first second : List Payload) (sameLength : first.length = second.length)
    (same : digest hash parent first = digest hash parent second) : first = second := by
  induction first using reverseRecOn generalizing second with
  | nil => exact (length_eq_zero_iff.mp sameLength.symm).symm
  | append_singleton init payload ih =>
    rcases eq_nil_or_concat second with rfl | ⟨init', payload', rfl⟩
    · simp at sameLength
    · simp only [concat_eq_append, digest_append, digest_cons, digest_nil] at same
      have both := collisionFree same
      simp only [Prod.mk.injEq] at both
      have lengths : init.length = init'.length := by simpa using sameLength
      rw [ih init' lengths both.1, both.2, concat_eq_append]

theorem digest_injective (collisionFree : Function.Injective hash) (root : Digest)
    (fresh : ∀ input, hash input ≠ root) (first second : List Payload)
    (same : digest hash root first = digest hash root second) : first = second := by
  induction first using reverseRecOn generalizing second with
  | nil =>
    rcases eq_nil_or_concat second with rfl | ⟨init, payload, rfl⟩
    · rfl
    · simp only [concat_eq_append, digest_nil, digest_append, digest_cons] at same
      exact absurd same.symm (fresh _)
  | append_singleton init payload ih =>
    rcases eq_nil_or_concat second with rfl | ⟨init', payload', rfl⟩
    · simp only [digest_nil, digest_append, digest_cons] at same
      exact absurd same (fresh _)
    · simp only [concat_eq_append, digest_append, digest_cons, digest_nil] at same
      have both := collisionFree same
      simp only [Prod.mk.injEq] at both
      rw [ih init' both.1, both.2, concat_eq_append]

end VllmDcu.HashChain
