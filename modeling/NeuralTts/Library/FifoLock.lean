import Mathlib.Data.List.Basic

/-! A mutual exclusion lock of a cooperative scheduler: `release` wakes the longest waiter,
and a newcomer is not let in while somebody waits. -/

namespace Library

universe u

structure FifoLock (τ : Type u) where
  holder : Option τ
  waiters : List τ
deriving DecidableEq

namespace FifoLock

variable {τ : Type u}

def unlocked : FifoLock τ := ⟨none, []⟩

def Idle (l : FifoLock τ) : Prop := l.holder = none ∧ l.waiters = []

instance (l : FifoLock τ) [DecidableEq τ] : Decidable l.Idle :=
  inferInstanceAs (Decidable (_ ∧ _))

def Granted (l : FifoLock τ) (t : τ) : Prop := l.holder = none ∧ l.waiters.head? = some t

instance (l : FifoLock τ) [DecidableEq τ] (t : τ) : Decidable (l.Granted t) :=
  inferInstanceAs (Decidable (_ ∧ _))

def hold (l : FifoLock τ) (t : τ) : FifoLock τ := { l with holder := some t }
def enqueue (l : FifoLock τ) (t : τ) : FifoLock τ := { l with waiters := l.waiters ++ [t] }
def grant (l : FifoLock τ) (t : τ) : FifoLock τ := ⟨some t, l.waiters.tail⟩
def release (l : FifoLock τ) : FifoLock τ := { l with holder := none }

def abandon [DecidableEq τ] (l : FifoLock τ) (t : τ) : FifoLock τ :=
  { l with waiters := l.waiters.erase t }

/-- Whoever is inside holds the lock. -/
def Guards (l : FifoLock τ) (inside : τ → Prop) : Prop := ∀ t, inside t → l.holder = some t

variable {l : FifoLock τ} {inside : τ → Prop}

theorem Guards.only (guards : l.Guards inside) {t t' : τ} (here : inside t) (there : inside t') : t' = t :=
  Option.some.inj ((guards t' there).symm.trans (guards t here))

theorem Guards.vacant (guards : l.Guards inside) (free : l.holder = none) (t : τ) : ¬inside t := by
  intro here
  have held := guards t here
  rw [free] at held
  cases held

end FifoLock

end Library
