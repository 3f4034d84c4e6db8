import Mathlib.Data.List.Perm.Basic
import Mathlib.Logic.Equiv.Basic
import Mathlib.Tactic.Common

set_option autoImplicit false

/-! # Tokens with one holder

Tokens that must be used up once each: memory blocks, handles, permits. At any time the holders
`ι` hold at most one token each (`held`), `issued` lists the tokens given out so far and `spent`
the ones used up. `OneHolder` says that no token has two holders and that what is issued and not
spent is exactly what is held. The rules below give the ways in which programs handle tokens:
give one out, use one up, and pass them on.
-/

namespace Tokens

universe u v

variable {ι : Type u} {τ : Type v}

structure OneHolder (held : ι → Option τ) (issued spent : List τ) : Prop where
  unique : ∀ {a b x}, held a = some x → held b = some x → a = b
  mem_issued : ∀ x, x ∈ issued ↔ x ∈ spent ∨ ∃ a, held a = some x
  unspent : ∀ {a x}, held a = some x → x ∉ spent
  nodup : spent.Nodup

variable {held : ι → Option τ} {issued spent : List τ}

theorem OneHolder.empty : OneHolder (fun _ : ι => (none : Option τ)) [] [] where
  unique h := by cases h
  mem_issued := by simp
  unspent h := by cases h
  nodup := List.nodup_nil

/-- What is held has been issued and not been spent, and the other way round. -/
theorem OneHolder.held_iff (h : OneHolder held issued spent) (x : τ) :
    (∃ a, held a = some x) ↔ x ∈ issued ∧ x ∉ spent := by
  constructor
  · rintro ⟨a, ha⟩
    exact ⟨(h.mem_issued x).mpr (.inr ⟨a, ha⟩), h.unspent ha⟩
  · rintro ⟨hi, hs⟩
    exact ((h.mem_issued x).mp hi).resolve_left hs

theorem OneHolder.perm (h : OneHolder held issued spent) {spent' : List τ}
    (hp : spent.Perm spent') : OneHolder held issued spent' where
  unique := h.unique
  mem_issued x := by rw [h.mem_issued, hp.mem_iff]
  unspent ha hs := h.unspent ha (hp.mem_iff.mpr hs)
  nodup := hp.nodup_iff.mp h.nodup

/-- Holders may exchange what they hold in any way. -/
theorem OneHolder.exchange (h : OneHolder held issued spent) (σ : Equiv.Perm ι) :
    OneHolder (fun i => held (σ i)) issued spent where
  unique ha hb := σ.injective (h.unique ha hb)
  mem_issued x := by
    rw [h.mem_issued]
    constructor
    · rintro (hs | ⟨a, ha⟩)
      · exact .inl hs
      · exact .inr ⟨σ.symm a, by simpa using ha⟩
    · rintro (hs | ⟨a, ha⟩)
      · exact .inl hs
      · exact .inr ⟨σ a, ha⟩
  unspent ha := h.unspent ha
  nodup := h.nodup

variable [DecidableEq ι]

/-- A new token is given to somebody who holds none. -/
theorem OneHolder.issue (h : OneHolder held issued spent) {a : ι} {x : τ} (ha : held a = none)
    (hx : x ∉ issued) : OneHolder (Function.update held a (some x)) (issued ++ [x]) spent := by
  -- The others hold what they held, which is not the new token.
  have hother : ∀ {b y}, b ≠ a → Function.update held a (some x) b = some y →
      held b = some y ∧ y ≠ x := by
    intro b y hb hy
    rw [Function.update_of_ne hb] at hy
    refine ⟨hy, fun hyx => hx ?_⟩
    exact (h.mem_issued x).mpr (.inr ⟨b, hyx ▸ hy⟩)
  have hself : ∀ {y}, Function.update held a (some x) a = some y → y = x := by
    intro y hy
    rw [Function.update_self] at hy
    exact (Option.some.inj hy).symm
  refine ⟨?_, fun y => ?_, ?_, h.nodup⟩
  · intro b c y hb hc
    by_cases hba : b = a
    · subst hba
      by_contra hne
      exact (hother (Ne.symm hne) hc).2 (hself hb)
    · by_cases hca : c = a
      · subst hca
        exact absurd (hself hc) (hother hba hb).2
      · exact h.unique (hother hba hb).1 (hother hca hc).1
  · rw [List.mem_append, List.mem_singleton, h.mem_issued]
    constructor
    · rintro ((hs | ⟨b, hb⟩) | rfl)
      · exact .inl hs
      · have hba : b ≠ a := fun hba => by rw [hba, ha] at hb; cases hb
        exact .inr ⟨b, by rw [Function.update_of_ne hba]; exact hb⟩
      · exact .inr ⟨a, Function.update_self ..⟩
    · rintro (hs | ⟨b, hb⟩)
      · exact .inl (.inl hs)
      · by_cases hba : b = a
        · subst hba
          exact .inr (hself hb)
        · exact .inl (.inr ⟨b, (hother hba hb).1⟩)
  · intro b y hb hs
    by_cases hba : b = a
    · subst hba
      exact hx ((h.mem_issued x).mpr (.inl (hself hb ▸ hs)))
    · exact h.unspent (hother hba hb).1 hs

/-- A holder uses up its token. -/
theorem OneHolder.spend (h : OneHolder held issued spent) {a : ι} {x : τ} (ha : held a = some x) :
    OneHolder (Function.update held a none) issued (spent ++ [x]) := by
  have hother : ∀ {b y}, Function.update held a none b = some y → held b = some y ∧ b ≠ a := by
    intro b y hb
    by_cases hba : b = a
    · subst hba
      rw [Function.update_self] at hb
      cases hb
    · rw [Function.update_of_ne hba] at hb
      exact ⟨hb, hba⟩
  refine ⟨fun hb hc => h.unique (hother hb).1 (hother hc).1, fun y => ?_, ?_, ?_⟩
  · rw [h.mem_issued, List.mem_append, List.mem_singleton]
    constructor
    · rintro (hs | ⟨b, hb⟩)
      · exact .inl (.inl hs)
      · by_cases hba : b = a
        · subst hba
          exact .inl (.inr (Option.some.inj (hb.symm.trans ha)))
        · exact .inr ⟨b, by rw [Function.update_of_ne hba]; exact hb⟩
    · rintro ((hs | rfl) | ⟨b, hb⟩)
      · exact .inl hs
      · exact .inr ⟨a, ha⟩
      · exact .inr ⟨b, (hother hb).1⟩
  · intro b y hb hs
    obtain ⟨hb', hba⟩ := hother hb
    rcases List.mem_append.mp hs with hs' | hs'
    · exact h.unspent hb' hs'
    · rw [List.mem_singleton.mp hs'] at hb'
      exact hba (h.unique hb' ha)
  · rw [List.nodup_append]
    refine ⟨h.nodup, by simp, ?_⟩
    rintro y hy z hz rfl
    exact h.unspent ha (List.mem_singleton.mp hz ▸ hy)

/-- A token that is given out and used up at once. -/
theorem OneHolder.issue_spend (h : OneHolder held issued spent) {a : ι} {x : τ}
    (ha : held a = none) (hx : x ∉ issued) : OneHolder held (issued ++ [x]) (spent ++ [x]) := by
  have hspent := (h.issue ha hx).spend (Function.update_self ..)
  rwa [Function.update_idem, ← ha, Function.update_eq_self] at hspent

end Tokens
