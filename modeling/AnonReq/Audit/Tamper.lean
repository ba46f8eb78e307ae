import AnonReq.Audit.Sequential
import Mathlib.Data.Countable.Basic
import Mathlib.Logic.Equiv.List

/-!
# Tamper evidence

What `verify_chain` detects of a tampered table, when the hash of an event determines the
hashed columns.

* `Tampered l l'` lists the tamperings that are detected: `l` are the entries of a tenant before,
  `l'` after. They are proved so in `verifyChain_of_tampered`.
* `forged_append_is_intact`: a further row, linked and hashed the way `store_event` does it, is
  not detected. The hash has no key, so whoever can write to the table can extend a chain.
-/

namespace AnonReq.Audit

open HashChain

/-- The hash of an event determines its hashed columns. -/
def HashInjective (H : List (String × Json) → String) : Prop :=
  Function.Injective fun c : Columns DateTime => H (canonical c)

/-- The tamperings of a chain `l` that leave it broken. -/
inductive Tampered (H : List (String × Json) → String) :
    List (Entry (Columns DateTime) String) → List (Entry (Columns DateTime) String) → Prop
  /-- Hashed columns of some rows are edited. At one of them the stored hash is left as it was,
  or the next row still has its previous hash. -/
  | edit {l l' : List (Entry (Columns DateTime) String)} (i : ℕ)
      {a a' : Entry (Columns DateTime) String} (ha : l[i]? = some a) (ha' : l'[i]? = some a')
      (hedited : a'.content ≠ a.content)
      (hkept : (∃ b b', l[i + 1]? = some b ∧ l'[i + 1]? = some b' ∧
        b'.content.prevHash = b.content.prevHash) ∨ a'.hash = a.hash) : Tampered H l l'
  /-- The rows are put in another order. -/
  | reorder {l l' : List (Entry (Columns DateTime) String)} (hperm : l'.Perm l)
      (hne : l' ≠ l) : Tampered H l l'
  /-- A row is inserted in front of another. -/
  | insert (p q : List (Entry (Columns DateTime) String))
      (x b : Entry (Columns DateTime) String) : Tampered H (p ++ b :: q) (p ++ x :: b :: q)
  /-- A row is appended that does not carry its own hash, or does not link to the last row. -/
  | append (p : List (Entry (Columns DateTime) String))
      (x b : Entry (Columns DateTime) String)
      (hbad : x.hash ≠ H (canonical x.content) ∨ x.content.prevHash ≠ some b.hash) :
      Tampered H (p ++ [b]) (p ++ [b] ++ [x])
  /-- Rows are deleted, and those left are not a block of consecutive rows. -/
  | delete {l l' : List (Entry (Columns DateTime) String)} (hsub : l'.Sublist l)
      (hblock : ¬ l' <:+: l) : Tampered H l l'

variable {H : List (String × Json) → String}

/-- A tampered chain is not verified. -/
theorem not_verified_of_tampered (hinj : HashInjective H)
    {l l' : List (Entry (Columns DateTime) String)} (hchain : (scheme H).Chain l)
    (htampered : Tampered H l l') : ¬ (scheme H).Verified l' := by
  have hdigest : Function.Injective (scheme H).digest := hinj
  intro hverified
  cases htampered with
  | edit i ha ha' hedited hkept =>
    exact hedited (hchain.toVerified.content_eq_of_edit hdigest hverified ha ha' hkept)
  | reorder hperm hne => exact hne (hchain.eq_of_perm hdigest hperm hverified)
  | insert p q x b => exact hchain.not_verified_insert hdigest hverified
  | append p x b hbad =>
    rcases hbad with hhash | hprev
    · exact hhash (hverified.isSealed x (by simp))
    · refine hprev ?_
      have hlinked := hverified.linked
      rw [List.append_assoc] at hlinked
      exact hlinked.right_of_append.rel
  | delete hsub hblock => exact hblock (hchain.isInfix_of_sublist hdigest hsub hverified)

instance countable_string : Countable String := by
  have hchar : Function.Injective Char.toNat := fun a b h => Char.ext (UInt32.toNat_inj.mp h)
  have htext : Function.Injective String.toList := fun a b h => String.toList_inj.mp h
  have : Countable Char := hchar.countable
  exact htext.countable

instance : Countable Json := by
  let code : Json → Option (String ⊕ ℤ)
    | .null => none
    | .str s => some (.inl s)
    | .num n => some (.inr n)
  have hcode : Function.Injective code := by
    rintro (_ | s | n) (_ | s' | n') h <;> simp_all [code]
  exact hcode.countable

theorem exists_hashInjective : ∃ H : List (String × Json) → String, HashInjective H := by
  obtain ⟨code, hcode⟩ := exists_injective_nat (List (String × Json))
  refine ⟨fun data => String.ofList (List.replicate (code data) 'a'), fun c c' h => ?_⟩
  have hlength := congrArg (fun s : String => s.toList.length) h
  simp only [String.toList_ofList, List.length_replicate] at hlength
  exact canonical_injective (hcode hlength)

/-- Some injective hash. -/
noncomputable def injectiveHash : List (String × Json) → String :=
  Classical.choose exists_hashInjective

theorem hashInjective_injectiveHash : HashInjective injectiveHash :=
  Classical.choose_spec exists_hashInjective

/-- The first event of a tenant, as `store_event` links it. -/
noncomputable def sampleLinked : AuditEvent :=
  linkEvent injectiveHash (sampleEvent "e1" "acme") none

/-- The same event with its type edited, and its hash left as it was. -/
noncomputable def sampleEdited : AuditEvent :=
  { sampleLinked with eventType := "policy_change" }

/-- A further row that is linked and hashed the way `store_event` does it is accepted. -/
theorem forged_append_is_intact {db : Database} (h : Inv H db) (event : AuditEvent)
    (hutc : event.timestamp.IsUtc) (hfresh : findStored db.rows event.eventId = none) :
    ∃ forged ∉ db.rows, forged.tenantId = event.tenantId ∧
      ∃ result, verifyChain H (db.rows ++ [forged]) event.tenantId = .ok result ∧
        result.isIntact = true := by
  obtain ⟨latest, hlatest⟩ := (h.chained event.tenantId).exists_lastEvent
  refine ⟨newRow db.dialect db.nextId (linkEvent H event latest), fun hmem => ?_, rfl, _,
    (h.insert hutc hlatest hfresh).verifyChain event.tenantId none, rfl⟩
  exact absurd (h.below _ hmem) (Nat.lt_irrefl db.nextId)

end AnonReq.Audit
