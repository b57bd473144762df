import ServerWall.Lib.Pool

/-!
# Histories

Besides the protocol of its machine any other that the code of a role follows can be read off the log:
the operations of a process are a *history* of its code (`Prog.Performs`), along which a protocol keeps
its record (`recorded`). Every step of every run leaves an event that the code does next (`Told`,
`System.run_told`). `View.Accounts` is the same for the machine's own record, `View.Cast` for the role.
-/

namespace ServerWall

open List Event Function Option

theorem append_eq_cut {α : Type} {log before rest : List α} {e x : α} (h : log ++ [e] = before ++ x :: rest) :
    (rest = [] ∧ before = log ∧ x = e) ∨ ∃ rest', rest = rest' ++ [e] ∧ log = before ++ x :: rest' := by
  rcases eq_nil_or_concat rest with rfl | ⟨rest', y, rfl⟩
  · have hs := append_inj' h rfl
    exact .inl ⟨rfl, hs.1.symm, (List.cons.inj hs.2).1.symm⟩
  · rw [concat_eq_append, ← cons_append, ← append_assoc] at h
    have hs := append_inj' h rfl
    obtain rfl := (List.cons.inj hs.2).1
    exact .inr ⟨rest', concat_eq_append, hs.1⟩

variable {Op : Type} {Res : Op → Type} {Role Agent Agent' Out Fault World Resp α β ε : Type}

abbrev History (Op : Type) (Res : Op → Type) : Type := List (Σ op, Res op)

/-! ## Histories of a program -/

/-- The first program performs these operations, is given these answers, and is
then the second program. -/
inductive Prog.Performs : Prog Op Res α → History Op Res → Prog Op Res α → Prop
  | done (p : Prog Op Res α) : Prog.Performs p [] p
  | step {op : Op} {k : Res op → Prog Op Res α} {r : Res op} {h : History Op Res}
      {q : Prog Op Res α} (hrest : Prog.Performs (k r) h q) :
      Prog.Performs (.vis op k) (⟨op, r⟩ :: h) q

namespace Prog

variable {p q : Prog Op Res α}

theorem Performs.append (hp : p.Performs h q) (hq : q.Performs h' q') : p.Performs (h ++ h') q' := by
  induction hp with
  | done p => exact hq
  | step _ ih => exact .step (ih hq)

theorem Performs.concat (hp : p.Performs h (.vis op k)) (r : Res op) : p.Performs (h ++ [⟨op, r⟩]) (k r) :=
  hp.append (.step (.done _))

theorem Performs.bind (f : α → Prog Op Res β) (hp : p.Performs h q) : (p >>= f).Performs h (q >>= f) := by
  induction hp with
  | done p => exact .done _
  | step _ ih => exact .step ih

end Prog

/-! ## The record along a history -/

namespace Protocol

variable {P : Protocol Op Res Role Agent Resp} {role : Role} {a : Agent}
variable {p q : Prog Op Res α} {h : History Op Res}

def recorded (P : Protocol Op Res Role Agent Resp) (role : Role) (a : Agent) (h : History Op Res) : Agent :=
  h.foldl (fun a x => P.track role a x.1 x.2) a

/-- A program that follows a protocol still does after any history, from the
record of that history. -/
theorem Follows.performs (hf : P.Follows role p a post) (hp : p.Performs h q) :
    P.Follows role q (P.recorded role a h) post := by
  induction hp generalizing a with
  | done p => exact hf
  | step _ ih => exact ih (hf.2 _)

end Protocol

/-! ## The history as the record -/

/-- The protocol that keeps everything, and says of each operation whether it may come after
that. -/
def Protocol.ofHistory (permits : History Op Res → Op → Prop) : Protocol Op Res Unit (History Op Res) Unit where
  start _ := []
  allowed _ h op := permits h op
  track _ h op r := h ++ [⟨op, r⟩]
  ends _ _ _ := True

/-- **A program keeps to it exactly if each of its operations is permitted by its history.** -/
theorem Protocol.follows_ofHistory {permits : History Op Res → Op → Prop} :
    ∀ {h : History Op Res}, (Protocol.ofHistory permits).Follows () p h (fun _ _ => True) ↔
      ∀ h' op k, p.Performs h' (.vis op k) → permits (h ++ h') op := by
  induction p with
  | pure x =>
    intro h
    refine ⟨fun _ h' op k hp => ?_, fun _ => trivial⟩
    cases hp
  | vis op k ih =>
    intro h
    constructor
    · rintro ⟨hpe, hr⟩ h' op' k' hp
      cases hp with
      | done => rwa [append_nil]
      | @step _ _ r h' _ hp =>
        have hl : permits (h ++ [⟨op, r⟩] ++ h') op' := (ih r).mp (hr r) h' op' k' hp
        rwa [append_assoc] at hl
    · intro hall
      have hf := hall [] op k (.done _)
      rw [append_nil] at hf
      refine ⟨hf, fun r => (ih r).mpr fun h' op' k' hp => ?_⟩
      show permits (h ++ [⟨op, r⟩] ++ h') op'
      rw [append_assoc]
      exact hall (⟨op, r⟩ :: h') op' k' (.step hp)

/-! ## The history of a process -/

section

variable {log : List (Event Op Res Role Resp)} {pid q : Nat} {role : Role}

def Event.part (pid : Nat) : Event Op Res Role Resp → Option (Σ op, Res op)
  | .did q _ op r => if q = pid then some ⟨op, r⟩ else none
  | _ => none

def historyOf (pid : Nat) (log : List (Event Op Res Role Resp)) : History Op Res := log.filterMap (part pid)

@[simp] theorem historyOf_did_self : historyOf pid (log ++ [.did pid role op r]) = historyOf pid log ++ [⟨op, r⟩] := by
  simp [part, historyOf]

theorem historyOf_concat (he : e.part pid = none) : historyOf pid (log ++ [e]) = historyOf pid log := by
  simp [he, historyOf]

@[simp] theorem historyOf_began : historyOf pid (log ++ [.began q role]) = historyOf pid log := historyOf_concat rfl

@[simp] theorem historyOf_ended : historyOf pid (log ++ [.ended q role x]) = historyOf pid log := historyOf_concat rfl

@[simp] theorem historyOf_crashed : historyOf pid (log ++ [.crashed lost]) = historyOf pid log := historyOf_concat rfl

theorem historyOf_did_other (hq : q ≠ pid) : historyOf pid (log ++ [.did q role op r]) = historyOf pid log :=
  historyOf_concat (if_neg hq)

def Told (M : Machine Op Res Role Out Fault World Resp) (log : List (Event Op Res Role Resp)) :
    Event Op Res Role Resp → Prop
  | .did pid role op _ => ∃ k, (M.code role).Performs (historyOf pid log) (.vis op k)
  | .ended pid role x => (M.code role).Performs (historyOf pid log) (.pure x)
  | _ => True

variable {Q : Protocol Op Res Role Agent Resp}

/-- **Any protocol the code follows** permits what the code does next, by the
record of what the log says it did. -/
theorem Told.allowed (ht : Told M log (.did pid role op r))
    (hc : Q.Follows role (M.code role) (Q.start role) (Q.ends role)) :
    Q.allowed role (Q.recorded role (Q.start role) (historyOf pid log)) op := by
  obtain ⟨k, hp⟩ := ht
  exact (hc.performs hp).1

theorem Told.ends {x : Resp} (ht : Told M log (.ended pid role x))
    (hc : Q.Follows role (M.code role) (Q.start role) (Q.ends role)) :
    Q.ends role (Q.recorded role (Q.start role) (historyOf pid log)) x :=
  hc.performs ht

end

/-! ## Every step is told -/

variable {e : Event Op Res Role Resp}

section

variable {M : Machine Op Res Role Out Fault World Resp} {P : Protocol Op Res Role Agent Resp}
variable {s s' : System Op Res Role Agent World Resp}

/-- The log holds the history of every process, and no other. -/
structure System.Chronicled (M : Machine Op Res Role Out Fault World Resp)
    (s : System Op Res Role Agent World Resp) : Prop where
  performs : ∀ pid p, s.procs pid = some p → (M.code p.role).Performs (historyOf pid s.log) p.prog
  bounded : ∀ pid p, s.procs pid = some p → pid < s.next
  unborn : ∀ pid, s.next ≤ pid → historyOf pid s.log = []

theorem System.Chronicled.launch (hs : s.Chronicled M) (role) : (s.launch M P role).Chronicled M where
  performs pid p hp := by
    show (M.code p.role).Performs (historyOf pid (s.log ++ [.began s.next role])) p.prog
    rw [historyOf_began]
    by_cases hpid : pid = s.next
    · subst hpid
      simp only [System.launch, update_self, some.injEq] at hp
      subst hp
      rw [hs.unborn s.next (Nat.le_refl _)]
      exact .done _
    · simp only [System.launch, update_of_ne hpid] at hp
      exact hs.performs pid p hp
  bounded pid p hp := by
    show pid < s.next + 1
    by_cases hpid : pid = s.next
    · omega
    · simp only [System.launch, update_of_ne hpid] at hp
      have := hs.bounded pid p hp
      omega
  unborn pid hpid := by
    show historyOf pid (s.log ++ [.began s.next role]) = []
    have hpid' : s.next + 1 ≤ pid := hpid
    rw [historyOf_began]
    exact hs.unborn pid (by omega)

theorem System.Chronicled.advance (hs : s.Chronicled M)
    (hpr : s.procs pid = some ⟨role, a, .vis op k⟩) (a' : Agent) (r : Res op) (w : World) :
    (s.advance pid ⟨role, a', k r⟩ (.did pid role op r) w).Chronicled M where
  performs q p hp := by
    show (M.code p.role).Performs (historyOf q (s.log ++ [.did pid role op r])) p.prog
    by_cases hq : q = pid
    · subst hq
      simp only [System.advance, update_self, some.injEq] at hp
      subst hp
      rw [historyOf_did_self]
      exact (hs.performs q _ hpr).concat r
    · simp only [System.advance, update_of_ne hq] at hp
      rw [historyOf_did_other (Ne.symm hq)]
      exact hs.performs q p hp
  bounded q p hp := by
    by_cases hq : q = pid
    · exact hq ▸ hs.bounded pid _ hpr
    · simp only [System.advance, update_of_ne hq] at hp
      exact hs.bounded q p hp
  unborn q hq := by
    show historyOf q (s.log ++ [.did pid role op r]) = []
    have hpid := hs.bounded pid _ hpr
    have hq' : s.next ≤ q := hq
    rw [historyOf_did_other (by omega)]
    exact hs.unborn q hq'

/-- Processes only gone, by an event that is no operation. -/
theorem System.Chronicled.fewer (hs : s.Chronicled M)
    (hn : s'.next = s.next) (hlog : s'.log = s.log ++ [e]) (he : ∀ pid, e.part pid = none)
    (hb : ∀ pid p, s'.procs pid = some p → s.procs pid = some p) : s'.Chronicled M where
  performs pid p hp := by
    rw [hlog, historyOf_concat (he pid)]
    exact hs.performs pid p (hb pid p hp)
  bounded pid p hp := by
    rw [hn]
    exact hs.bounded pid p (hb pid p hp)
  unborn pid hpid := by
    rw [hlog, historyOf_concat (he pid)]
    exact hs.unborn pid (hn ▸ hpid)

/-- A step is told by the log before it, and the log stays a chronicle. -/
theorem System.step_told (hs : s.Chronicled M) (hst : s.step M P l = some (e, s')) :
    Told M s.log e ∧ s'.Chronicled M := by
  cases l with
  | launch role =>
    simp only [System.step] at hst
    split at hst
    · cases hst
      exact ⟨trivial, hs.launch role⟩
    · cases hst
  | act pid out =>
    simp only [System.step] at hst
    split at hst
    · rename_i role a op k hpr
      split at hst
      · rename_i r w he
        have hn := hs.advance hpr (P.track role a op r) r w
        split at hst
        · cases hst
          exact ⟨⟨k, hs.performs pid _ hpr⟩, hn.launch _⟩
        · cases hst
          exact ⟨⟨k, hs.performs pid _ hpr⟩, hn⟩
      · cases hst
    · cases hst
  | finish pid =>
    simp only [System.step] at hst
    split at hst
    · rename_i role a x hpr
      cases hst
      refine ⟨hs.performs pid _ hpr, hs.fewer rfl rfl (fun _ => rfl) ?_⟩
      intro q p hp
      by_cases hq : q = pid
      · simp [hq] at hp
      · simpa only [update_of_ne hq] using hp
    · cases hst
  | crash fault =>
    cases hst
    exact ⟨trivial, hs.fewer rfl rfl (fun _ => rfl) fun pid p hp => (filter_eq_some_iff.mp hp).1⟩

theorem System.along_true : ∀ (ls : List (Label Role Out Fault)) (s : System Op Res Role Agent World Resp),
      s.run M P ls = some s' → s.along M P (fun _ _ => true) ls
  | [], _, _ => rfl
  | l :: ls, s, hrun => by
    obtain ⟨e, s₁, hs, hrun⟩ := System.run_cons hrun
    rw [System.along, hs]
    exact System.along_true ls s₁ hrun

def View.Unborn (v : View Op Res Role Agent World Resp) : Prop := ∀ pid, v.next ≤ pid → historyOf pid v.log = []

/-- **Invariants of told runs**: what survives every step that meets `C`, refines the protocol machine and
is told by the log holds at the end of a run of such steps, and what they guarantee, `D`, along it. -/
theorem System.run_told (hco : ∀ role, P.Follows role (M.code role) (P.start role) (P.ends role))
    (I : View Op Res Role Agent World Resp → Prop)
    (hinv : ∀ {v v' e}, I v → C v e → Told M v.log e → v.Unborn → Moves M P v e v' → I v' ∧ D v e) :
    ∀ (ls : List (Label Role Out Fault)) (s : System Op Res Role Agent World Resp), s.Sound P →
      s.Chronicled M → I s.view → s.run M P ls = some s' → s.along M P C ls → I s'.view ∧ s.along M P D ls
  | [], s, _, _, hI, hrun, _ => by
    cases some.inj hrun
    exact ⟨hI, rfl⟩
  | l :: ls, s, hs, hc, hI, hrun, hC => by
    obtain ⟨e, s₁, hst, hrun⟩ := System.run_cons hrun
    simp only [System.along, hst, Bool.and_eq_true] at hC ⊢
    obtain ⟨hm, hs₁⟩ := System.step_moves hco hs hst
    obtain ⟨ht, hc₁⟩ := System.step_told hc hst
    obtain ⟨hI₁, hD⟩ := hinv hI hC.1 ht hc.unborn hm
    obtain ⟨hI', hD'⟩ := System.run_told hco I hinv ls s₁ hs₁ hc₁ hI₁ hrun hC.2
    exact ⟨hI', hD, hD'⟩

/-- Every step leaves its event, and the start of a child besides. -/
theorem Moves.log (hm : Moves M P v e v') :
    v'.log = v.log ++ [e] ∨ ∃ child, v'.log = v.log ++ [e] ++ [.began v.next child] := by
  cases hm with
  | spawn pid role a op out r w child => exact .inr ⟨child, rfl⟩
  | _ => exact .inl rfl

/-- **Every event of a run is told** by what stood before it. -/
theorem System.log_told (hco : ∀ role, P.Follows role (M.code role) (P.start role) (P.ends role)) {before after : List (Event Op Res Role Resp)} (hs : s.Sound P) (hc : s.Chronicled M) (hnew : s.log = [])
    (hrun : s.run M P ls = some s') (hlog : s'.log = before ++ e :: after) : Told M before e := by
  have hall := System.run_told (D := fun _ _ => true) hco
    (fun v => ∀ before e after, v.log = before ++ e :: after → Told M before e) ?_ ls s hs hc ?_ hrun
    (System.along_true ls s hrun)
  · exact hall.1 before e after hlog
  · intro v v' e' hI _ ht _ hm
    refine ⟨fun before e after hcut => ?_, rfl⟩
    rcases hm.log with hlog' | ⟨child, hlog'⟩
    · rw [hlog'] at hcut
      rcases append_eq_cut hcut with ⟨-, rfl, rfl⟩ | ⟨after', -, hcut'⟩
      · exact ht
      · exact hI before e after' hcut'
    · rw [hlog'] at hcut
      rcases append_eq_cut hcut with ⟨-, -, rfl⟩ | ⟨after', -, hcut'⟩
      · exact trivial
      · rcases append_eq_cut hcut' with ⟨-, rfl, rfl⟩ | ⟨after'', -, hcut''⟩
        · exact ht
        · exact hI before e after'' hcut''
  · intro before e after hcut
    have hcut' : s.log = before ++ e :: after := hcut
    rw [hnew] at hcut'
    simp at hcut'

end

/-! ## What holds of a process by itself

A fact about the record and the history of one process that every permitted operation
keeps holds of every process of every run, however it is interleaved. -/

section

variable {P : Protocol Op Res Role Agent Resp} {F : Role → Agent → History Op Res → Prop}
variable {v v' : View Op Res Role Agent World Resp} {log : List (Event Op Res Role Resp)}
variable {pid : Nat} {role : Role} {a : Agent}

theorem mem_historyOf : ⟨op, r⟩ ∈ historyOf pid log ↔ ∃ role, did pid role op r ∈ log := by
  rw [historyOf, mem_filterMap]
  constructor
  · rintro ⟨e, hmem, hp⟩
    cases e with
    | did q role' op' r' =>
      rw [part] at hp
      split at hp
      · rename_i hq
        subst hq
        cases hp
        exact ⟨role', hmem⟩
      · cases hp
    | _ => cases hp
  · rintro ⟨role', hmem⟩
    exact ⟨_, hmem, if_pos rfl⟩

theorem ended_of_concat (he : ∀ q role x, e ≠ .ended q role x) (hmem : ended q role x ∈ log ++ [e]) :
    ended q role x ∈ log := by
  rcases mem_append.mp hmem with hmem | hmem
  · exact hmem
  · exact absurd (mem_singleton.mp hmem).symm (he q role x)

/-- The fact holds of the processes that run, and of those that ended it held when
they did. -/
structure View.Accounts (P : Protocol Op Res Role Agent Resp)
    (F : Role → Agent → History Op Res → Prop) (v : View Op Res Role Agent World Resp) : Prop where
  bounded : v.Bounded
  unborn : v.Unborn
  born : ∀ {pid role x}, ended pid role x ∈ v.log → pid < v.next
  live : ∀ {pid role a}, v.Live pid role a → F role a (historyOf pid v.log)
  alive : ∀ {pid role a}, v.Live pid role a → ∀ role' x, ended pid role' x ∉ v.log
  ended : ∀ {pid role x}, ended pid role x ∈ v.log → ∃ a, F role a (historyOf pid v.log) ∧ P.ends role a x

namespace View.Accounts

variable (h : v.Accounts P F)
include h

/-- A step that is no operation, with the processes of before, some gone or one that is new. -/
theorem frame (hlog : v'.log = v.log ++ [e])
    (hqu : ∀ q, historyOf q (v.log ++ [e]) = historyOf q v.log) (hbo : v'.Bounded) (hn : v.next ≤ v'.next)
    (hba : ∀ {q role b}, v'.Live q role b → v.Live q role b ∨ (v.next ≤ q ∧ F role b []))
    (hen : ∀ {q role x}, e = .ended q role x →
      (∃ a, v.Live q role a ∧ P.ends role a x) ∧ ∀ role' b, ¬ v'.Live q role' b) : v'.Accounts P F := by
  have hc : ∀ {q role x}, Event.ended q role x ∈ v'.log → Event.ended q role x ∈ v.log ∨ e = .ended q role x := by
    intro q role x hmem
    rw [hlog, mem_append, mem_singleton] at hmem
    exact hmem.imp_right Eq.symm
  have hs : ∀ q, historyOf q v'.log = historyOf q v.log := fun q => by rw [hlog, hqu]
  constructor
  · exact hbo
  · intro q hq
    rw [hs]
    exact h.unborn q (Nat.le_trans hn hq)
  · intro q role x hmem
    rcases hc hmem with hmem | he
    · exact Nat.lt_of_lt_of_le (h.born hmem) hn
    · obtain ⟨⟨a, hl, -⟩, -⟩ := hen he
      exact Nat.lt_of_lt_of_le (h.bounded q role a hl) hn
  · intro q role b hb
    rw [hs]
    rcases hba hb with hb | ⟨hq, hst⟩
    · exact h.live hb
    · rwa [h.unborn q hq]
  · intro q role b hb role' x hmem
    rcases hc hmem with hmem | he
    · rcases hba hb with hb | ⟨hq, -⟩
      · exact h.alive hb role' x hmem
      · exact absurd (h.born hmem) (Nat.not_lt.mpr hq)
    · exact (hen he).2 role b hb
  · intro q role x hmem
    rw [hs]
    rcases hc hmem with hmem | he
    · exact h.ended hmem
    · obtain ⟨⟨a, hl, hend⟩, -⟩ := hen he
      exact ⟨a, h.live hl, hend⟩

theorem launch (hs : F role (P.start role) []) : (v.launch P role).Accounts P F := by
  refine h.frame rfl (fun _ => historyOf_began) h.bounded.launch (Nat.le_succ _) (fun hb => ?_) nofun
  rcases hb.of_launch with hb | ⟨rfl, rfl, rfl⟩
  · exact .inl hb
  · exact .inr ⟨Nat.le_refl _, hs⟩

theorem advance (hl : v.Live pid role a) (hact : F role a' (historyOf pid v.log ++ [⟨op, r⟩])) :
    (v.did pid role op r a' w).Accounts P F := by
  have hold : ∀ {q role' x}, Event.ended q role' x ∈ v.log ++ [.did pid role op r] →
      Event.ended q role' x ∈ v.log := ended_of_concat (by simp)
  -- a process that has ended is not the one that acts
  have he : ∀ {q role' x}, Event.ended q role' x ∈ v.log → pid ≠ q := by
    rintro q role' x hmem rfl
    exact h.alive hl role' x hmem
  constructor
  · exact h.bounded.advance hl
  · intro q hq
    have hpid := h.bounded pid role a hl
    have hq' : v.next ≤ q := hq
    show historyOf q (v.log ++ [.did pid role op r]) = []
    rw [historyOf_did_other (by omega)]
    exact h.unborn q hq'
  · intro q role' x hmem
    exact h.born (hold hmem)
  · intro q role' b hb
    show F role' b (historyOf q (v.log ++ [.did pid role op r]))
    rcases hb.of_advance with ⟨rfl, rfl, rfl⟩ | ⟨hq, hb⟩
    · rwa [historyOf_did_self]
    · rw [historyOf_did_other (Ne.symm hq)]
      exact h.live hb
  · intro q role' b hb role'' x hmem
    obtain ⟨b₀, hb₀⟩ := live_back hl hb
    exact h.alive hb₀ role'' x (hold hmem)
  · intro q role' x hmem
    show ∃ b, F role' b (historyOf q (v.log ++ [.did pid role op r])) ∧ P.ends role' b x
    rw [historyOf_did_other (he (hold hmem))]
    exact h.ended (hold hmem)

theorem retire (hl : v.Live pid role a) (hen : P.ends role a x) : (v.retire pid (.ended pid role x)).Accounts P F := by
  refine h.frame rfl (fun _ => historyOf_ended) (h.bounded.fewer rfl fun hb => hb.of_retire)
    (Nat.le_refl _) (fun hb => .inl hb.of_retire) fun he => ?_
  cases he
  exact ⟨⟨a, hl, hen⟩, fun role' b hb => (live_retire.mp hb).1 rfl⟩

theorem restart (lost : Nat → Role → Bool) (w : World) : (v.restart lost w).Accounts P F :=
  h.frame rfl (fun _ => historyOf_crashed) (h.bounded.fewer rfl fun hb => hb.of_restart)
    (Nat.le_refl _) (fun hb => .inl hb.of_restart) nofun

omit h

/-- **Facts about single processes**: what the start of every role and every permitted
operation keep, every step keeps. -/
theorem step {M : Machine Op Res Role Out Fault World Resp}
    (hs : ∀ role, F role (P.start role) []) (hact : ∀ {role a h op out r w w'}, F role a h → P.allowed role a op →
      M.exec op out w = some (r, w') → F role (P.track role a op r) (h ++ [⟨op, r⟩]))
    (h : v.Accounts P F) (hm : Moves M P v e v') : v'.Accounts P F := by
  cases hm with
  | launch role had => exact h.launch (hs role)
  | act pid role a op out r w hl ha he hsp => exact h.advance hl (hact (h.live hl) ha he)
  | spawn pid role a op out r w child hl ha he hsp => exact (h.advance hl (hact (h.live hl) ha he)).launch (hs child)
  | finish pid role a x hl hen => exact h.retire hl hen
  | crash fault => exact h.restart _ _

end View.Accounts

def Event.actor : Event Op Res Role Resp → Option (Nat × Role)
  | .began pid role => some (pid, role)
  | .did pid role _ _ => some (pid, role)
  | .ended pid role _ => some (pid, role)
  | .crashed _ => none

/-- Nobody acts who was not started, and in no other role. -/
structure View.Cast (v : View Op Res Role Agent World Resp) : Prop where
  live : ∀ {pid role a}, v.Live pid role a → began pid role ∈ v.log
  acted : ∀ {e pid role}, e ∈ v.log → e.actor = some (pid, role) → began pid role ∈ v.log

namespace View.Cast

/-- A new event of a process that was started, or of a start. -/
theorem concat (h : v.Cast) (hlog : v'.log = v.log ++ [e])
    (ha : ∀ pid role, e.actor = some (pid, role) → began pid role ∈ v.log ∨ e = .began pid role)
    (hba : ∀ {q role b}, v'.Live q role b → (∃ b₀, v.Live q role b₀) ∨ e = .began q role) : v'.Cast := by
  have hold : ∀ {x : Event Op Res Role Resp}, x ∈ v.log → x ∈ v'.log := by
    intro x hx
    rw [hlog]
    exact mem_append_left _ hx
  have hnew : e ∈ v'.log := by
    rw [hlog]
    exact mem_append_right _ (mem_singleton_self _)
  constructor
  · intro q role b hb
    rcases hba hb with ⟨b₀, hb₀⟩ | rfl
    · exact hold (h.live hb₀)
    · exact hnew
  · intro x q role hx hq
    rw [hlog, mem_append, mem_singleton] at hx
    rcases hx with hx | rfl
    · exact hold (h.acted hx hq)
    · rcases ha q role hq with hbe | rfl
      · exact hold hbe
      · exact hnew

theorem launch (h : v.Cast) (role) : (v.launch P role).Cast := by
  refine h.concat rfl ?_ fun hb => ?_
  · intro q role' hq
    cases hq
    exact .inr rfl
  · rcases hb.of_launch with hb | ⟨rfl, rfl, rfl⟩
    · exact .inl ⟨_, hb⟩
    · exact .inr rfl

theorem step (h : v.Cast) (hm : Moves M P v e v') : v'.Cast := by
  have hdid : ∀ {pid role a op r a' w}, v.Live pid role a → (v.did pid role op r a' w).Cast := by
    intro pid role a op r a' w hl
    refine h.concat rfl ?_ fun hb => ?_
    · intro q role' hq
      cases hq
      exact .inl (h.live hl)
    · obtain ⟨b₀, hb₀⟩ := live_back hl hb
      exact .inl ⟨b₀, hb₀⟩
  cases hm with
  | launch role had => exact h.launch role
  | act pid role a op out r w hl ha he hs => exact hdid hl
  | spawn pid role a op out r w child hl ha he hs => exact (hdid hl).launch child
  | finish pid role a x hl hen =>
    refine h.concat rfl ?_ fun hb => .inl ⟨_, hb.of_retire⟩
    intro q role' hq
    cases hq
    exact .inl (h.live hl)
  | crash fault =>
    refine h.concat rfl ?_ fun hb => .inl ⟨_, hb.of_restart⟩
    intro q role' hq
    cases hq

end View.Cast

end

end ServerWall
