import Mathlib.Logic.Function.Iterate
import Mathlib.Order.Nat

/-!
# Fair runs

A run is *fair* when again and again the system takes a step or has none to take. A goal is reached if
each step of the system lowers a rank that its environment does not raise (`Descent`,
`FairRun.reaches`). There is a fair run along every path (`exists_fairRun_through`).
-/

namespace ServerWall

variable {σ : Type} {System Environment : σ → σ → Prop} {run : ℕ → σ}

structure FairRun (System Environment : σ → σ → Prop) (run : ℕ → σ) : Prop where
  moves : ∀ n, System (run n) (run (n + 1)) ∨ Environment (run n) (run (n + 1)) ∨ run (n + 1) = run n
  fair : ∀ n, ∃ m ≥ n, System (run m) (run (m + 1)) ∨ ∀ s, ¬ System (run m) s

def Either (System Environment : σ → σ → Prop) (s t : σ) : Prop := System s t ∨ Environment s t

structure Descent (System Environment : σ → σ → Prop) (Inv Goal : σ → Prop) (rank : σ → ℕ) : Prop where
  canMove : ∀ {s}, Inv s → ¬ Goal s → ∃ t, System s t
  keeps : ∀ {s t}, Inv s → Either System Environment s t → Inv t
  lowers : ∀ {s t}, Inv s → System s t → rank t < rank s
  spares : ∀ {s t}, Inv s → Environment s t → rank t ≤ rank s

namespace FairRun

theorem keeps (h : FairRun System Environment run) {Inv : σ → Prop}
    (hk : ∀ s t, Inv s → Either System Environment s t → Inv t) (hn : Inv (run n)) : ∀ m ≥ n, Inv (run m) := by
  intro m hm
  induction m, hm using Nat.le_induction with
  | base => exact hn
  | succ m _ ih =>
    rcases h.moves m with hs | he | hsa
    · exact hk _ _ ih (.inl hs)
    · exact hk _ _ ih (.inr he)
    · exact hsa ▸ ih

variable {Inv Goal : σ → Prop} {rank : σ → ℕ}

theorem rank_le (h : FairRun System Environment run) (d : Descent System Environment Inv Goal rank) (hn : Inv (run n)) :
    ∀ m ≥ n, rank (run m) ≤ rank (run n) := by
  intro m hm
  have hinv := h.keeps (fun _ _ => d.keeps) hn
  induction m, hm using Nat.le_induction with
  | base => exact le_refl _
  | succ m hm ih =>
    rcases h.moves m with hs | he | hsa
    · exact (d.lowers (hinv m hm) hs).le.trans ih
    · exact (d.spares (hinv m hm) he).trans ih
    · exact hsa ▸ ih

/-- **A descent reaches its goal** in every fair run. -/
theorem reaches (h : FairRun System Environment run) (d : Descent System Environment Inv Goal rank) (hn : Inv (run n)) :
    ∃ m ≥ n, Goal (run m) := by
  -- from one move of the system to the next, by induction on the rank
  induction hr : rank (run n) using Nat.strong_induction_on generalizing n with
  | _ r ih =>
    obtain ⟨m, hm, hmo⟩ := h.fair n
    have hinv : Inv (run m) := h.keeps (fun _ _ => d.keeps) hn m hm
    by_cases hg : Goal (run m)
    · exact ⟨m, hm, hg⟩
    · rcases hmo with hs | hst
      · have hlow : rank (run (m + 1)) < r := hr ▸ (d.lowers hinv hs).trans_le (h.rank_le d hn m hm)
        obtain ⟨k, hk, hg⟩ := ih _ hlow (d.keeps hinv (.inl hs)) rfl
        exact ⟨k, by omega, hg⟩
      · obtain ⟨t, ht⟩ := d.canMove hinv hg
        exact absurd ht (hst t)

theorem cons (h : FairRun System Environment run) (hs : Either System Environment s (run 0)) :
    FairRun System Environment (fun n => n.casesOn s run) where
  moves n := by
    cases n with
    | zero => exact hs.imp_right .inl
    | succ n => exact h.moves n
  fair n := by
    obtain ⟨m, hm, hmo⟩ := h.fair n
    exact ⟨m + 1, by omega, hmo⟩

end FairRun

/-- There is a fair run from every state: the system goes on while it can. -/
theorem exists_fairRun (System Environment : σ → σ → Prop) (s : σ) :
    ∃ run, FairRun System Environment run ∧ run 0 = s := by
  classical
  let next : σ → σ := fun s => if h : ∃ t, System s t then h.choose else s
  have hn : ∀ s, System s (next s) ∨ (next s = s ∧ ∀ t, ¬ System s t) := by
    intro s
    by_cases h : ∃ t, System s t
    · exact .inl (by simpa only [next, dif_pos h] using h.choose_spec)
    · exact .inr ⟨dif_neg h, not_exists.mp h⟩
  refine ⟨fun n => next^[n] s, ⟨fun n => ?_, fun n => ⟨n, le_refl n, ?_⟩⟩, rfl⟩
  · rw [Function.iterate_succ_apply']
    exact (hn _).imp_right fun h => .inr h.1
  · rw [Function.iterate_succ_apply']
    exact (hn _).imp_right And.right

/-- **There is a fair run along every path.** -/
theorem exists_fairRun_through (hp : Relation.ReflTransGen (Either System Environment) s t) :
    ∃ run n, FairRun System Environment run ∧ run 0 = s ∧ run n = t := by
  induction hp using Relation.ReflTransGen.head_induction_on with
  | refl =>
    obtain ⟨run, hrun, hs⟩ := exists_fairRun System Environment t
    exact ⟨run, 0, hrun, hs, hs⟩
  | head hst _ ih =>
    obtain ⟨run, n, hrun, hs, hend⟩ := ih
    exact ⟨_, n + 1, hrun.cons (hs.symm ▸ hst), rfl, hend⟩

end ServerWall
