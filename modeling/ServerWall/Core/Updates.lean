import ServerWall.Core.Replacement

/-!
# Edits at the same time

An edit loads, changes and writes, with only the write under the lock, so an edit in between is
overwritten (`update_lost`). That is the only way (`editsInTurn`): otherwise the configuration is what
the calls leave one after the other (`InTurn`, `no_lost_update`).
-/

namespace ServerWall.Core

open Schema List Caller Event

variable {Octet : Type}

/-! ## What was put in place, and on what grounds -/

def commit? : Happening Octet → Option (Nat × Caller)
  | .did pid caller (.rename _ _) (.ok _) => some (pid, caller)
  | _ => none

def commits (log : List (Happening Octet)) : List (Nat × Caller) := log.filterMap commit?

/-- Whether what a caller loaded is still current after one more event. -/
def stillCurrent (pid : Nat) (current : Bool) : Happening Octet → Bool
  | .did q _ (.load _) _ => current || q == pid
  | .did _ _ (.rename _ _) (.ok _) => false
  | _ => current

/-- Nothing was put in place since the caller loaded the configuration. -/
def upToDate (pid : Nat) (log : List (Happening Octet)) : Bool := log.foldl (stillCurrent pid) false

/-- What the caller writes is not out of date; the writer by itself is given its
configuration and loads none. -/
def Caller.current (caller : Caller) (pid : Nat) (log : List (Happening Octet)) : Bool :=
  match caller with
  | .write _ _ => true
  | .edit _ _ => upToDate pid log

/-- Edits take turns: none puts its file in place when somebody else has since its
load. And no temporary file is the configuration. -/
def editsInTurn (path : Text) (v : Scene Octet) (e : Happening Octet) : Bool := apart path v e && match e with
    | .did pid caller (.rename _ _) (.ok _) => caller.current pid v.log
    | _ => true

section

variable {log : List (Happening Octet)} {e : Happening Octet} {pid q : Nat} {caller c : Caller}
variable {op : FileOp Octet} {r : op.Res}

theorem commits_concat : commits (log ++ [e]) = commits log ++ (commit? e).toList := by
  unfold commits
  rw [filterMap_append]
  cases h : commit? e <;> simp [h]

theorem commit?_eq_none (h : installs ⟨op, r⟩ = false) : commit? (.did pid caller op r : Happening Octet) = none := by
  cases op with
  | rename source target =>
    cases r with
    | ok _ => cases h
    | error _ => rfl
  | _ => rfl

theorem commits_other (h : commit? e = none) : commits (log ++ [e]) = commits log := by
  rw [commits_concat, h]
  exact append_nil _

theorem Caller.current_before (h : c.current q (log ++ [.did pid caller op r]))
    (hl : q = pid → ∀ p, op ≠ .load p) : c.current q log := by
  cases c with
  | write os config => rfl
  | edit os edit =>
    have hf : stillCurrent q (upToDate q log) (.did pid caller op r) = true := by
      rw [← h]
      exact (foldl_concat _ _ _ _).symm
    cases op with
    | load p =>
      have hne : pid ≠ q := fun hq => hl hq.symm p rfl
      rw [stillCurrent, beq_false_of_ne hne, Bool.or_false] at hf
      exact hf
    | rename source target =>
      cases r with
      | ok _ => cases hf
      | error _ => exact hf
    | _ => exact hf

theorem Caller.current_of_quiet (h : c.current q (log ++ [e]))
    (he : ∀ pid caller op r, e ≠ .did pid caller op r) : c.current q log := by
  cases c with
  | write os config => rfl
  | edit os edit =>
    have hf : stillCurrent q (upToDate q log) e = true := by
      rw [← h]
      exact (foldl_concat _ _ _ _).symm
    cases e with
    | did pid caller op r => exact absurd rfl (he _ _ _ _)
    | _ => exact hf

theorem count_commits : (commits log).countP (fun x => x.1 == pid) = (historyOf pid log).countP installs := by
  unfold commits historyOf
  rw [countP_filterMap, countP_filterMap]
  refine countP_congr fun e _ => ?_
  cases e with
  | did q caller op r =>
    by_cases hq : q = pid
    · subst hq
      rw [part, if_pos rfl]
      cases op with
      | rename source target => cases r <;> simp [commit?, installs]
      | _ => simp [commit?, installs]
    · rw [part, if_neg hq]
      cases op with
      | rename source target => cases r <;> simp [commit?, hq]
      | _ => simp [commit?]
  | _ => simp [commit?, part]

end

/-! ## One call after the other -/

section

variable {crates : Crates Octet} {path : Text} {w : Disk Octet}

theorem Caller.config_congr (caller : Caller) (hc : w.content path = w'.content path)
    (hd : w.dirs = w'.dirs) : caller.config crates path w = caller.config crates path w' := by
  cases caller with
  | write os config => rfl
  | edit os op =>
    show loadConfig crates w path >>= _ = loadConfig crates w' path >>= _
    rw [loadConfig_congr crates hc hd]

theorem Serial.pair (h : Serial crates path w [c, d] w') : ∃ doc₁ doc₂, c.document crates path w = .ok doc₁ ∧
      (∀ w₁ : Disk Octet, w₁.content path = some doc₁ → w₁.dirs = w.dirs → d.document crates path w₁ = .ok doc₂) ∧
      w'.content path = some doc₂ := by
  obtain ⟨w₁, hc, w₂, hd, rfl⟩ := h
  obtain ⟨doc₁, hdoc₁, hco₁, hdi₁⟩ := ends_document c hc
  obtain ⟨doc₂, hdoc₂, hco₂, -⟩ := ends_document d hd
  refine ⟨doc₁, doc₂, hdoc₁, fun w₃ hco hdi => ?_, hco₂⟩
  rw [← hdoc₂, document, document, d.config_congr (hco.trans hco₁.symm) (hdi.trans hdi₁.symm)]

/-- The configuration is what the calls leave that were put in place, run one after the
other, and every caller goes on with what it would be given now. -/
structure InTurn (crates : Crates Octet) (path : Text) (disk : Disk Octet) (v : Scene Octet) : Prop where
  shelter : Sheltered path v
  serial : ∃ w, Serial crates path disk ((commits v.log).map Prod.snd) w ∧
    w.content path = v.world.content path ∧ w.dirs = v.world.dirs ∧
    w.names (lockPath path) = none
  config : ∀ {pid caller a config}, v.Live pid caller a → a.config? = some config →
    caller.current pid v.log = true → caller.config crates path v.world = .ok config

variable {v : Scene Octet} {e : Happening Octet} {pid : Nat}
variable {caller : Caller} {a a' : Stage Octet} {op : FileOp Octet} {r : op.Res}

theorem Deed.dirs (hd : Deed crates path caller a w op r a' w') : w'.dirs = w.dirs := by
  cases hd <;> rfl

theorem InTurn.kept (h : InTurn crates path disk v) (hli : v.Live pid caller a)
    (hd : Deed crates path caller a v.world op r a' w') (hs : Sheltered path (v.did pid caller op r a' w'))
    (hc : w'.content path = v.world.content path) (hi : installs ⟨op, r⟩ = false) :
    InTurn crates path disk (v.did pid caller op r a' w') := by
  refine ⟨hs, ?_, ?_⟩
  · obtain ⟨w, hse, hw, hdi, hf⟩ := h.serial
    refine ⟨w, ?_, hw.trans hc.symm, hdi.trans hd.dirs.symm, hf⟩
    show Serial crates path disk ((commits (v.log ++ [_])).map Prod.snd) w
    rwa [commits_other (commit?_eq_none hi)]
  · intro q c b config hb hco hcu
    show c.config crates path w' = .ok config
    rw [c.config_congr hc hd.dirs]
    rcases hb.of_advance with ⟨hq, rfl, rfl⟩ | ⟨hq, hb⟩
    · rcases hd.config hco with ⟨hold, hl⟩ | ⟨os, edit, loaded, rfl, -, hl, he⟩
      · exact h.config (hq ▸ hli) hold (current_before hcu fun _ => hl)
      · exact bind_eq_ok.mpr ⟨loaded, hl, he⟩
    · exact h.config hb hco (current_before hcu fun h => absurd h hq)

theorem InTurn.committed (h : InTurn crates path disk v) {config : ServerWallConfig}
    {lock file : Ino} {written : List Octet} {tmp : Text} (hl : v.Live pid caller (.writing config lock file written))
    (hde : Deed crates path caller (.writing config lock file written) v.world (.rename tmp path) (.ok ()) a' w')
    (hcu : caller.current pid v.log)
    (hs : Sheltered path (v.advance pid caller a' (.did pid caller (.rename tmp path) (.ok ())) w'))
    (hdoc : serialize crates config = .ok written) (hco : w'.content path = some written) :
    InTurn crates path disk (v.advance pid caller a' (.did pid caller (.rename tmp path) (.ok ())) w') := by
  obtain ⟨w, hse, hw, hwd, hf⟩ := h.serial
  refine ⟨hs, ?_, ?_⟩
  · -- by itself, the caller would write the same document
    have hd : caller.document crates path w = .ok written := by
      have hc := h.config hl rfl hcu
      rw [← caller.config_congr hw hwd] at hc
      exact bind_eq_ok.mpr ⟨config, hc, hdoc⟩
    obtain ⟨_, ⟨dir, hdir, -⟩, -⟩ := h.shelter.order.file hl
    obtain ⟨w₁, he, hf₁⟩ := exists_ends hd hdir hf
    obtain ⟨doc, hd', hw₁, hd₁⟩ := ends_document caller he
    obtain rfl := Except.ok.inj (hd.symm.trans hd')
    refine ⟨w₁, ?_, hw₁.trans hco.symm, (hd₁.trans hwd).trans hde.dirs.symm, hf₁⟩
    show Serial crates path disk ((commits (v.log ++ [_])).map Prod.snd) w₁
    rw [commits_concat, map_append]
    exact hse.concat he
  · intro q c b config' hb hc' hcu'
    cases c with
    | edit os edit => cases hcu'.symm.trans (foldl_concat _ _ _ _)
    | write os given =>
      -- the writer was given its configuration and keeps it
      rcases hb.of_advance with ⟨hq, rfl, rfl⟩ | ⟨-, hb⟩
      · rcases hde.config hc' with ⟨hold, -⟩ | ⟨_, _, _, hca, -⟩
        · exact h.config hl hold rfl
        · cases hca
      · exact h.config hb hc' rfl

theorem InTurn.did (h : InTurn crates path disk v) (hl : v.Live pid caller a)
    (hd : Deed crates path caller a v.world op r a' w') (ht : editsInTurn path v (.did pid caller op r)) :
    InTurn crates path disk (v.did pid caller op r a' w') := by
  have hst : Step crates path v (.did pid caller op r) _ := .did pid caller a op r a' w' hl hd
  have hs := h.shelter.step rfl hst
  rcases hd.content h.shelter.order hl fun _ => h.shelter.apart hl with
    ⟨hsa, hi⟩ | ⟨config, lock, file, written, tmp, rfl, he, hdoc, hc⟩
  · exact h.kept hl hd hs hsa hi
  · cases he
    exact h.committed hl hd ht hs hdoc hc

theorem InTurn.other (h : InTurn crates path disk v) (hs : Sheltered path v')
    (hw : v'.world = v.world) (hlog : v'.log = v.log ++ [e]) (he : ∀ pid caller op r, e ≠ .did pid caller op r)
    (hba : ∀ {q c b}, v'.Live q c b → v.Live q c b ∨ b = c.stage) : InTurn crates path disk v' := by
  have hco : commit? e = none := by
    cases e with
    | did pid caller op r => exact absurd rfl (he _ _ _ _)
    | _ => rfl
  refine ⟨hs, ?_, ?_⟩
  · rw [hlog, commits_other hco, hw]
    exact h.serial
  · intro q c b config hb hc hcu
    rw [hw]
    rcases hba hb with hb | rfl
    · rw [hlog] at hcu
      exact h.config hb hc (current_of_quiet hcu he)
    · cases c with
      | write os given =>
        cases hc
        rfl
      | edit os edit => cases hc

/-- **Every step in turn keeps the calls in turn.** -/
theorem InTurn.step (h : InTurn crates path disk v) (ht : editsInTurn path v e)
    (hst : Step crates path v e v') : InTurn crates path disk v' := by
  have hs := h.shelter.step (Bool.and_eq_true _ _ |>.mp ht).1 hst
  cases hst with
  | began caller =>
    refine h.other hs rfl rfl (fun _ _ _ _ h => by cases h) fun hb => ?_
    rcases hb.of_launch with hb | ⟨-, rfl, rfl⟩
    · exact .inl hb
    · exact .inr rfl
  | did pid caller a op r a' w' hl hd => exact h.did hl hd ht
  | ended pid caller a x hl hr => exact h.other hs rfl rfl (fun _ _ _ _ h => by cases h) fun hb => .inl hb.of_retire
  | crashed lost => exact h.other hs rfl rfl (fun _ _ _ _ h => by cases h) fun hb => .inl hb.of_restart

theorem inTurn_start (ht : disk.Tidy) (hf : disk.names (lockPath path) = none) :
    InTurn crates path disk (System.view { world := disk }) where
  shelter := sheltered_start ht
  serial := ⟨disk, rfl, rfl, rfl, hf⟩
  config h := absurd h not_live_start

/-! ## A lock from the start -/

structure Blocked (path : Text) (v : Scene Octet) : Prop where
  there : v.world.names (lockPath path) ≠ none
  nobody : ∀ {pid caller a}, v.Live pid caller a → a.lock? = none
  nothing : commits v.log = []

theorem Blocked.did (h : Blocked path v) (hl : v.Live pid caller a)
    (hd : Deed crates path caller a v.world op r a' w') : Blocked path (v.did pid caller op r a' w') := by
  have hout := h.nobody hl
  have hk : w' = v.world ∧ a'.lock? = none ∧ installs ⟨op, r⟩ = false := by
    cases hd with
    | loaded | unread | refused | barred => exact ⟨rfl, rfl, rfl⟩
    | still hq => exact ⟨rfl, hout, installs_quiet hq⟩
    | acquired ha hf => exact absurd hf h.there
    | spoilt ha => rcases ha with rfl | ⟨_, _, rfl⟩ <;> cases hout
    | dropped ha | stuck ha => rcases ha with ⟨rfl, -⟩ | ⟨rfl, -⟩ <;> cases hout
    | _ => cases hout
  obtain ⟨rfl, hlo, hi⟩ := hk
  refine ⟨h.there, ?_, ?_⟩
  · intro q c b hb
    rcases hb.of_advance with ⟨-, -, rfl⟩ | ⟨-, hb⟩
    · exact hlo
    · exact h.nobody hb
  · exact (commits_other (commit?_eq_none hi)).trans h.nothing

theorem Blocked.step (h : Blocked path v) (hs : Step crates path v e v') : Blocked path v' := by
  cases hs with
  | began caller =>
    refine ⟨h.there, fun hb => ?_, (commits_other rfl).trans h.nothing⟩
    rcases hb.of_launch with hb | ⟨-, rfl, rfl⟩
    · exact h.nobody hb
    · rename_i c
      cases c <;> rfl
  | did pid caller a op r a' w' hl hd => exact h.did hl hd
  | ended pid caller a x hl hr =>
    exact ⟨h.there, fun hb => h.nobody hb.of_retire, (commits_other rfl).trans h.nothing⟩
  | crashed lost =>
    exact ⟨h.there, fun hb => h.nobody hb.of_restart, (commits_other rfl).trans h.nothing⟩

theorem blocked_start (ht : disk.names (lockPath path) ≠ none) : Blocked path (System.view { world := disk }) where
  there := ht
  nobody h := absurd h not_live_start
  nothing := rfl

end

/-! ## Two edits -/

section

variable {crates : Crates Octet} {path : Text}
variable {s : Site Octet}

theorem committed_once (hrun : runCallers crates path disk labels = some s) (he : ended pid caller (.ok ()) ∈ s.log) :
    (commits s.log).countP (fun x => x.1 == pid) = 1 := by
  obtain ⟨a, ht, hr⟩ := (run_tally hrun).ended he
  have hre : a.replaced = true := by
    cases a with
    | idle | ready | barred => exact hr.elim nofun
    | waiting => cases hr
    | released replaced =>
      cases replaced with
      | true => rfl
      | false => exact hr.elim nofun
    | _ => exact hr.elim
  rw [count_commits]
  exact ht.installed.trans (congrArg Bool.toNat hre)

theorem began_of_commit (hrun : runCallers crates path disk labels = some s) (hmem : (pid, caller) ∈ commits s.log) : began pid caller ∈ s.log := by
  obtain ⟨e, he, hc⟩ := mem_filterMap.mp hmem
  have hcast : s.view.Cast := reach_invariant View.Cast ⟨fun h => absurd h not_live_start, nofun⟩
    (fun h _ hm => h.step hm) (run_reaches hrun)
  refine hcast.acted he ?_
  cases e with
  | did q c op r =>
    cases op with
    | rename source target =>
      cases r with
      | ok _ => exact hc
      | error _ => cases hc
    | _ => cases hc
  | _ => cases hc

theorem eq_singleton_of_count {α : Type} {l : List (Nat × α)} {p q : Nat} {x y : α}
    (hmem : ∀ z ∈ l, z = (p, x) ∨ z = (q, y)) (hp : l.countP (fun z => z.1 == p) = 0)
    (hq : l.countP (fun z => z.1 == q) = 1) : l = [(q, y)] := by
  have hall : ∀ z ∈ l, z = (q, y) := by
    intro z hz
    rcases hmem z hz with rfl | rfl
    · exact absurd (beq_self_eq_true p) (countP_eq_zero.mp hp _ hz)
    · rfl
  have hl : l.length = 1 := by
    rw [← hq, eq_comm, countP_eq_length]
    intro z hz
    rw [hall z hz]
    exact beq_self_eq_true q
  obtain ⟨z, rfl⟩ := length_eq_one_iff.mp hl
  rw [hall z (mem_singleton_self z)]

theorem two_orders {α : Type} {l : List (Nat × α)} {p q : Nat} {x y : α} (hne : p ≠ q)
    (hmem : ∀ z ∈ l, z = (p, x) ∨ z = (q, y)) (hp : l.countP (fun z => z.1 == p) = 1)
    (hq : l.countP (fun z => z.1 == q) = 1) : l = [(p, x), (q, y)] ∨ l = [(q, y), (p, x)] := by
  cases l with
  | nil => cases hp
  | cons z l =>
    obtain ⟨hz, hr⟩ := forall_mem_cons.mp hmem
    rcases hz with rfl | rfl
    · simp only [countP_cons, beq_iff_eq, if_true, hne, if_false, Nat.add_zero] at hp hq
      rw [eq_singleton_of_count hr (Nat.succ.inj hp) hq]
      exact .inl rfl
    · simp only [countP_cons, beq_iff_eq, if_true, hne.symm, if_false, Nat.add_zero] at hp hq
      rw [eq_singleton_of_count (fun z hz => (hr z hz).symm) (Nat.succ.inj hq) hp]
      exact .inr rfl

end

/-- **No lost update**: two edits that return `Ok` are both there, in one of the two orders. -/
theorem no_lost_update (crates : Crates Octet) (path : Text)
    (files : Text → Option (List Octet)) (dirs : Text → Option (List (DropIn Octet)))
    (os₁ os₂ : Nat) (op₁ op₂ : Edit) (pid₁ pid₂ : Nat) (hne : pid₁ ≠ pid₂) (labels : Schedule)
    (s : Site Octet) (hrun : runCallers crates path (.ofFiles files dirs) labels = some s)
    (hturn : runMeets crates path (.ofFiles files dirs) (editsInTurn path) labels = true)
    (hbegan : ∀ pid caller, Event.began pid caller ∈ s.log →
      (pid, caller) = (pid₁, .edit os₁ op₁) ∨ (pid, caller) = (pid₂, .edit os₂ op₂))
    (hok₁ : Event.ended pid₁ (.edit os₁ op₁) (.ok ()) ∈ s.log)
    (hok₂ : Event.ended pid₂ (.edit os₂ op₂) (.ok ()) ∈ s.log) :
    ∃ disk, (Serial crates path (.ofFiles files dirs) [.edit os₁ op₁, .edit os₂ op₂] disk ∨
        Serial crates path (.ofFiles files dirs) [.edit os₂ op₂, .edit os₁ op₁] disk) ∧
      s.world.content path = disk.content path := by
  have hcount₁ := committed_once hrun hok₁
  have hcount₂ := committed_once hrun hok₂
  have hmem : ∀ z ∈ commits s.log, z = (pid₁, edit os₁ op₁) ∨ z = (pid₂, edit os₂ op₂) :=
    fun z hz => hbegan z.1 z.2 (began_of_commit hrun hz)
  cases hlock : (Disk.ofFiles files dirs).names (lockPath path) with
  | some lock =>
    -- nobody gets past a lock that is there from the start
    have hthere : (Disk.ofFiles files dirs).names (lockPath path) ≠ none := by
      rw [hlock]
      exact Option.some_ne_none _
    have hblocked : Blocked path s.view := run_invariant (Blocked path) (blocked_start hthere)
      (fun h _ hstep => h.step hstep) hrun hturn
    have hnothing : commits s.log = [] := hblocked.nothing
    rw [hnothing] at hcount₁
    cases hcount₁
  | none =>
    have hinTurn : InTurn crates path (.ofFiles files dirs) s.view :=
      run_invariant (InTurn crates path (.ofFiles files dirs))
        (inTurn_start (Disk.tidy_ofFiles files dirs) hlock) (fun h hC hstep => h.step hC hstep)
        hrun hturn
    obtain ⟨disk, hserial, hcontent, -⟩ := hinTurn.serial
    refine ⟨disk, ?_, hcontent.symm⟩
    have horders := two_orders hne hmem hcount₁ hcount₂
    have hserial' : Serial crates path (.ofFiles files dirs) ((commits s.log).map Prod.snd) disk := hserial
    rcases horders with horder | horder <;> rw [horder] at hserial'
    · exact .inl hserial'
    · exact .inr hserial'

/-! ## Two processes that each block a network -/

def blocking (networks : List Text) : ServerWallConfig where
  security := { acl := { ip := { block := networks } } }

def writesOut (pid : Nat) : Schedule :=
  [.act pid .ok, .act pid .ok, .act pid (.part 1), .act pid .ok, .act pid .ok, .act pid .ok, .finish pid]

def oneAfterTheOther : Schedule := [.launch (.edit 7 (.addAclBlock "192.0.2.0/24")),
    .launch (.edit 8 (.addAclBlock "198.51.100.0/24")), .act 0 .ok] ++ writesOut 0 ++
    .act 1 .ok :: writesOut 1

def bothLoadFirst : Schedule := [.launch (.edit 7 (.addAclBlock "192.0.2.0/24")),
    .launch (.edit 8 (.addAclBlock "198.51.100.0/24")), .act 0 .ok, .act 1 .ok] ++ writesOut 0 ++
    writesOut 1

def begun? : Happening Octet → Option (Nat × Caller)
  | .began pid caller => some (pid, caller)
  | _ => none

theorem both_kept : ∃ s : Site ServerWallConfig, runCallers .verbatim "/etc/serverwall.toml"
        (.ofFiles (onlyFile "/etc/serverwall.toml") fun _ => none) oneAfterTheOther = some s ∧
      ∃ disk, (Serial .verbatim "/etc/serverwall.toml" (.ofFiles (onlyFile "/etc/serverwall.toml") fun _ => none)
            [.edit 7 (.addAclBlock "192.0.2.0/24"), .edit 8 (.addAclBlock "198.51.100.0/24")] disk ∨
          Serial .verbatim "/etc/serverwall.toml" (.ofFiles (onlyFile "/etc/serverwall.toml") fun _ => none)
            [.edit 8 (.addAclBlock "198.51.100.0/24"), .edit 7 (.addAclBlock "192.0.2.0/24")] disk) ∧
        s.world.content "/etc/serverwall.toml" = disk.content "/etc/serverwall.toml" := by
  have hrun : ∃ s : Site ServerWallConfig, runCallers .verbatim "/etc/serverwall.toml"
        (.ofFiles (onlyFile "/etc/serverwall.toml") fun _ => none) oneAfterTheOther = some s ∧
      (∀ pid caller, began pid caller ∈ s.log → (pid, caller) = (0, .edit 7 (.addAclBlock "192.0.2.0/24")) ∨
          (pid, caller) = (1, .edit 8 (.addAclBlock "198.51.100.0/24"))) ∧
      ended 0 (.edit 7 (.addAclBlock "192.0.2.0/24")) (.ok ()) ∈ s.log ∧
      ended 1 (.edit 8 (.addAclBlock "198.51.100.0/24")) (.ok ()) ∈ s.log := by
    refine ⟨_, rfl, ?_, mem_of_getElem? (i := 9) rfl, mem_of_getElem? (i := 17) rfl⟩
    intro pid caller hmem
    have hstarted : (pid, caller) ∈ List.filterMap begun? _ := mem_filterMap.mpr ⟨_, hmem, rfl⟩
    have htwo : (pid, caller) ∈ [(0, edit 7 (.addAclBlock "192.0.2.0/24")),
        (1, edit 8 (.addAclBlock "198.51.100.0/24"))] := hstarted
    rw [mem_cons, mem_singleton] at htwo
    exact htwo
  obtain ⟨s, hrun, hbegan, hok₁, hok₂⟩ := hrun
  exact ⟨s, hrun, no_lost_update .verbatim "/etc/serverwall.toml" _ _ 7 8 _ _ 0 1 (by decide)
    oneAfterTheOther s hrun rfl hbegan hok₁ hok₂⟩

/-- Both edits return `Ok`, and the first network is not blocked. Neither order of the two
leaves that. -/
theorem update_lost : ∃ s : Site ServerWallConfig, runCallers .verbatim "/etc/serverwall.toml"
        (.ofFiles (onlyFile "/etc/serverwall.toml") fun _ => none) bothLoadFirst = some s ∧
      Event.ended 0 (.edit 7 (.addAclBlock "192.0.2.0/24")) (.ok ()) ∈ s.log ∧
      Event.ended 1 (.edit 8 (.addAclBlock "198.51.100.0/24")) (.ok ()) ∈ s.log ∧
      s.world.content "/etc/serverwall.toml" = some [blocking ["198.51.100.0/24"]] ∧
      ∀ disk, Serial .verbatim "/etc/serverwall.toml" (.ofFiles (onlyFile "/etc/serverwall.toml") fun _ => none)
            [.edit 7 (.addAclBlock "192.0.2.0/24"), .edit 8 (.addAclBlock "198.51.100.0/24")] disk ∨
          Serial .verbatim "/etc/serverwall.toml" (.ofFiles (onlyFile "/etc/serverwall.toml") fun _ => none)
            [.edit 8 (.addAclBlock "198.51.100.0/24"), .edit 7 (.addAclBlock "192.0.2.0/24")] disk →
        s.world.content "/etc/serverwall.toml" ≠ disk.content "/etc/serverwall.toml" := by
  refine ⟨_, rfl, mem_of_getElem? (i := 10) rfl, mem_of_getElem? (i := 17) rfl, rfl, ?_⟩
  intro disk hserial
  show some [blocking ["198.51.100.0/24"]] ≠ _
  rcases hserial with hserial | hserial
  · obtain ⟨doc₁, doc₂, h₁, h₂, hcontent⟩ := hserial.pair
    cases h₁
    have h₂' := h₂ (.ofFiles (fun _ => some [blocking ["192.0.2.0/24"]]) fun _ => none) rfl rfl
    cases h₂'
    rw [hcontent]
    intro h
    exact absurd (congrArg (fun doc => (doc.map (·.map (·.security.acl.ip.block)))) h) (by decide)
  · obtain ⟨doc₁, doc₂, h₁, h₂, hcontent⟩ := hserial.pair
    cases h₁
    have h₂' := h₂ (.ofFiles (fun _ => some [blocking ["198.51.100.0/24"]]) fun _ => none) rfl rfl
    cases h₂'
    rw [hcontent]
    intro h
    exact absurd (congrArg (fun doc => (doc.map (·.map (·.security.acl.ip.block)))) h) (by decide)

end ServerWall.Core
