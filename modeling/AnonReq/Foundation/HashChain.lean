import Mathlib.Data.List.Chain
import Mathlib.Data.List.Infix

/-!
# Hash chains

A log in which every entry stores the digest of its own content, and in which the content of
every entry names the hash of the entry before it. A scheme fixes the two functions involved:
where the content keeps the back link, and how it is digested.

* `Verified` is what a neighbour-by-neighbour verifier checks: every entry is sealed and every
  entry but the first links to its predecessor. It says nothing about the first back link.
* `Chain` adds the root: the first back link is empty.

For an injective digest a chain determines its own order: `Chain.isInfix_of_linked` shows that
entries of a chain that link to one another stand next to each other in it. The detection
results (`Chain.eq_of_perm`, `Chain.not_verified_insert`, `Chain.isInfix_of_sublist`,
`Verified.content_eq_of_edit`) are its consequences.
-/

namespace HashChain

universe u v

/-- One entry of a log: its content and the hash stored beside it. -/
@[ext]
structure Entry (γ : Type u) (κ : Type v) where
  content : γ
  hash : κ

/-- How a log is linked: the back link kept in a content, and the digest of a content. -/
structure Scheme (γ : Type u) (κ : Type v) where
  prev : γ → Option κ
  digest : γ → κ

variable {γ : Type u} {κ : Type v} (S : Scheme γ κ)

namespace Scheme

/-- The stored hash is the digest of the content. -/
def Sealed (e : Entry γ κ) : Prop := e.hash = S.digest e.content

/-- Entry `b` links back to entry `a`. -/
def Follows (a b : Entry γ κ) : Prop := S.prev b.content = some a.hash

/-- Every entry but the first links to the one before it. -/
def Linked (l : List (Entry γ κ)) : Prop := l.IsChain S.Follows

/-- What comparing neighbours can check of a log. -/
structure Verified (l : List (Entry γ κ)) : Prop where
  isSealed : ∀ e ∈ l, S.Sealed e
  linked : S.Linked l

/-- A log linked from an empty back link. -/
structure Chain (l : List (Entry γ κ)) : Prop extends S.Verified l where
  root : ∀ e ∈ l.head?, S.prev e.content = none

end Scheme

open Scheme

variable {S} {l : List (Entry γ κ)}

/-! ### Growing and cutting a log -/

theorem Scheme.chain_nil : S.Chain [] :=
  ⟨⟨fun _ h => absurd h List.not_mem_nil, List.isChain_nil⟩, fun _ h => by simp at h⟩

/-- A sealed entry that links to the last entry (to nothing, in an empty log) extends the
chain. -/
theorem Scheme.Chain.concat (h : S.Chain l) {e : Entry γ κ} (hs : S.Sealed e)
    (hp : S.prev e.content = l.getLast?.map Entry.hash) : S.Chain (l ++ [e]) := by
  refine ⟨⟨fun x hx => ?_, ?_⟩, ?_⟩
  · rcases List.mem_append.mp hx with hx | hx
    · exact h.isSealed x hx
    · exact List.mem_singleton.mp hx ▸ hs
  · refine List.isChain_append.mpr ⟨h.linked, List.isChain_singleton e, fun a ha b hb => ?_⟩
    obtain rfl : e = b := by simpa using hb
    rw [Follows, hp, Option.mem_def.mp ha, Option.map_some]
  · intro x hx
    cases l with
    | nil =>
      obtain rfl : e = x := by simpa using hx
      simpa using hp
    | cons a t => exact h.root x (by simpa using hx)

/-- Cutting a verified log at both ends leaves a verified log. -/
theorem Scheme.Verified.of_isInfix (h : S.Verified l) {part : List (Entry γ κ)}
    (hp : part <:+: l) : S.Verified part :=
  ⟨fun e he => h.isSealed e (hp.mem he), h.linked.infix hp⟩

/-- Cutting a chain at its end leaves a chain. -/
theorem Scheme.Chain.of_prefix (h : S.Chain l) {part : List (Entry γ κ)} (hp : part <+: l) :
    S.Chain part := by
  refine ⟨h.toVerified.of_isInfix hp.isInfix, fun e he => ?_⟩
  obtain ⟨rest, rfl⟩ := hp
  refine h.root e ?_
  rw [List.head?_append, Option.mem_def.mp he]
  rfl

/-! ### An injective digest fixes the order -/

section Injective

variable (hd : Function.Injective S.digest)
include hd

/-- Sealed entries with one hash are one entry. -/
theorem Scheme.Sealed.eq_of_hash_eq {a b : Entry γ κ} (ha : S.Sealed a) (hb : S.Sealed b)
    (h : a.hash = b.hash) : a = b :=
  Entry.ext (hd (ha.symm.trans (h.trans hb))) h

/-- **Contiguity.** Entries of a chain that link to one another are neighbours in it. -/
theorem Scheme.Chain.isInfix_of_linked (h : S.Chain l) {part : List (Entry γ κ)}
    (hsub : ∀ e ∈ part, e ∈ l) (hl : S.Linked part) : part <:+: l := by
  induction part with
  | nil => exact List.nil_infix
  | cons a t ih =>
    have ht : t <:+: l := ih (fun e he => hsub e (List.mem_cons_of_mem a he)) hl.tail
    cases t with
    | nil =>
      obtain ⟨p, q, rfl⟩ := List.append_of_mem (hsub a List.mem_cons_self)
      exact ⟨p, q, by simp⟩
    | cons b t =>
      obtain ⟨p, q, rfl⟩ := ht
      have hab : S.prev b.content = some a.hash := hl.rel
      rcases List.eq_nil_or_concat p with rfl | ⟨p, c, rfl⟩
      · -- `b` would be the first entry, whose back link is empty
        have hroot := h.root b (by simp)
        simp [hroot] at hab
      · have hcb : S.Follows c b := by
          have hlink := h.linked
          simp only [List.concat_eq_append, List.append_assoc, List.cons_append,
            List.nil_append] at hlink
          exact (hlink.right_of_append).rel
        have hca : c = a := by
          refine Sealed.eq_of_hash_eq hd (h.isSealed c (by simp))
            (h.isSealed a (hsub a List.mem_cons_self)) ?_
          rw [Follows, hab] at hcb
          exact (Option.some.inj hcb).symm
        exact ⟨p, q, by simp [hca]⟩

/-- No entry of a chain links to itself. -/
theorem Scheme.Chain.not_follows_self (h : S.Chain l) {a : Entry γ κ} (ha : a ∈ l) :
    ¬ S.Follows a a := by
  intro hself
  have hlink : S.Linked (List.replicate (l.length + 1) a) :=
    List.isChain_replicate_of_rel _ hself
  have hinf := h.isInfix_of_linked hd (fun e he => List.eq_of_mem_replicate he ▸ ha) hlink
  have hlen := hinf.length_le
  rw [List.length_replicate] at hlen
  omega

/-- A log with the entries of a chain in another order is not linked. -/
theorem Scheme.Chain.eq_of_perm (h : S.Chain l) {l' : List (Entry γ κ)} (hp : l'.Perm l)
    (hv : S.Verified l') : l' = l :=
  (h.isInfix_of_linked hd (fun _ he => hp.subset he) hv.linked).eq_of_length hp.length_eq

/-- The entries left after a deletion link to one another only when they are a block. -/
theorem Scheme.Chain.isInfix_of_sublist (h : S.Chain l) {l' : List (Entry γ κ)}
    (hs : l'.Sublist l) (hv : S.Verified l') : l' <:+: l :=
  h.isInfix_of_linked hd (fun _ he => hs.subset he) hv.linked

/-- Nothing can be inserted in front of an entry of a chain. -/
theorem Scheme.Chain.not_verified_insert {p q : List (Entry γ κ)} {x b : Entry γ κ}
    (h : S.Chain (p ++ b :: q)) : ¬ S.Verified (p ++ x :: b :: q) := by
  intro hv
  have hxb : S.prev b.content = some x.hash := hv.linked.right_of_append.rel
  rcases List.eq_nil_or_concat p with rfl | ⟨p, a, rfl⟩
  · have hroot := h.root b (by simp)
    simp [hroot] at hxb
  · simp only [List.concat_eq_append, List.append_assoc, List.cons_append,
      List.nil_append] at h hv
    have hab : S.prev b.content = some a.hash := h.linked.right_of_append.rel
    have hax : S.Follows a x := hv.linked.right_of_append.rel
    -- the new entry carries the hash of the old predecessor, so it is that entry again
    have hxa : x = a := by
      refine Sealed.eq_of_hash_eq hd (hv.isSealed x (by simp)) (hv.isSealed a (by simp)) ?_
      exact Option.some.inj (hxb.symm.trans hab)
    exact h.not_follows_self hd (by simp) (hxa ▸ hax)

/-- A changed content that passes the check at its own place is betrayed by the next entry, or
by its own stored hash, as long as one of the two is the old one. -/
theorem Scheme.Verified.content_eq_of_edit {l' : List (Entry γ κ)} (h : S.Verified l)
    (hv : S.Verified l') {i : ℕ} {a a' : Entry γ κ} (ha : l[i]? = some a) (ha' : l'[i]? = some a')
    (hnext : (∃ b b', l[i + 1]? = some b ∧ l'[i + 1]? = some b' ∧
        S.prev b'.content = S.prev b.content) ∨ a'.hash = a.hash) :
    a'.content = a.content := by
  have hsa : S.Sealed a := h.isSealed a (List.mem_of_getElem? ha)
  have hsa' : S.Sealed a' := hv.isSealed a' (List.mem_of_getElem? ha')
  have hhash : a'.hash = a.hash := by
    rcases hnext with ⟨b, b', hb, hb', hprev⟩ | hhash
    · have hab := List.isChain_iff_getElem.mp h.linked i (List.getElem?_eq_some_iff.mp hb).1
      have hab' := List.isChain_iff_getElem.mp hv.linked i (List.getElem?_eq_some_iff.mp hb').1
      rw [(List.getElem?_eq_some_iff.mp ha).2, (List.getElem?_eq_some_iff.mp hb).2] at hab
      rw [(List.getElem?_eq_some_iff.mp ha').2, (List.getElem?_eq_some_iff.mp hb').2] at hab'
      exact Option.some.inj (hab'.symm.trans (hprev.trans hab))
    · exact hhash
  exact congrArg Entry.content (Sealed.eq_of_hash_eq hd hsa' hsa hhash)

end Injective

end HashChain
