import ServerWall.Relay.Conduct.Docket
import ServerWall.Relay.Runs

/-!
# When a message leaves the queue

A task may take a message from the queue if it was delivered, has a null sender, or a bounce is stored
that returns its header block as configured (`Case.Justified`). The code removes it after any attempt to
store a bounce (`removal_justified_iff`, `unstored_bounce_removed`).
-/

namespace ServerWall.Relay

open BounceGenerator List Option Case

/-! ## The property -/

/-- The header block of a message: everything before the first blank line. -/
def headerBlock : Bytes → Bytes
  | [] => []
  | b :: rest =>
    if [13, 10, 13, 10].isPrefixOf (b :: rest) || [10, 10].isPrefixOf (b :: rest) then []
    else b :: headerBlock rest

namespace Case

variable (cfg : Config) (c : Case)

/-- The headers part of the stored bounce begins with the header block. -/
def ReturnsHeaders (q : QueuedMessage) (bounce : Bytes) : Prop :=
  ∃ headers t u, c.stamp = some t ∧ c.randoms.head? = some u ∧
    bounce = (cfg.bounceGen.body q.envelope c.error headers t u).bytes ∧
    headerBlock (c.text.getD []) <+: headers.bytes

/-- A bounce to the sender is stored: both of its files were written. -/
def BounceStored (q : QueuedMessage) : Prop :=
  ∃ bounce record, c.draft.text = some bounce ∧ c.draft.record = some record ∧
    record.envelope.rcptTo = [q.envelope.mailFrom] ∧
    (cfg.bounceGen.includeOriginalHeaders = true → c.ReturnsHeaders cfg q bounce)

/-- The reasons for which a message may leave the queue. -/
def Justified : Prop := (∃ response, c.verdict = some (.success response)) ∨
    ∃ q, c.loaded = some q ∧ (isNullSender q.envelope.mailFrom = true ∨ c.BounceStored cfg q)

/-! ## The condition -/

def refused : Bool :=
  match c.verdict with
  | some (.permFail _) => true
  | _ => false

/-- The files of the bounce could be written, and what is returned of the message
begins with its header block. -/
def Accounted : Prop := (∃ response, c.verdict = some (.success response)) ∨
    ∃ q, c.loaded = some q ∧ (isNullSender q.envelope.mailFrom = true ∨
      (c.draft.failed = false ∧ (cfg.bounceGen.includeOriginalHeaders = true → if c.refused then
          headerBlock (c.text.getD []) <+: (extractHeaders cfg.decoder (c.text.getD [])).bytes
        else headerBlock (c.text.getD []) = [])))

end Case

/-! ## What a bounce returns -/

theorem body_headers_injective {g : BounceGenerator} {error h h' : Text}
    {t : Instant} (heq : (g.body env error h t u).bytes = (g.body env error h' t u).bytes) : h = h' := by
  have ht : g.body env error h t u = g.body env error h' t u := by
    have hof := congrArg Text.ofBytes heq
    rw [Text.ofBytes_bytes, Text.ofBytes_bytes] at hof
    exact some.inj hof
  simp only [BounceGenerator.body, Text.fmt, flatten_cons, append_cancel_left_eq, append_cancel_right_eq] at ht
  exact ht

theorem extractHeaders_nil (d : Decoder) : extractHeaders d [] = [] := by
  have hnil : d.lossy [] = [] := d.lossy_ascii [] fun _ h => absurd h not_mem_nil
  unfold extractHeaders
  rw [hnil]
  rfl

variable {cfg : Config} {c : Case} {q : QueuedMessage}

variable (hi : cfg.bounceGen.includeOriginalHeaders)
include hi

/-- What is returned of the message: its headers after a permanent failure, and
nothing in every other case. -/
theorem Case.headers_eq : c.headers cfg = if c.refused then extractHeaders cfg.decoder (c.text.getD []) else [] := by
  have hr : c.returned = if c.refused then c.text.getD [] else [] := by
    unfold returned refused
    cases c.verdict with
    | none => rfl
    | some r => cases r <;> rfl
  rw [headers, if_pos hi, hr]
  split
  · rfl
  · exact extractHeaders_nil cfg.decoder

theorem Case.headers_prefix_iff : headerBlock (c.text.getD []) <+: (c.headers cfg).bytes ↔ if c.refused then
        headerBlock (c.text.getD []) <+: (extractHeaders cfg.decoder (c.text.getD [])).bytes
      else headerBlock (c.text.getD []) = [] := by
  rw [headers_eq hi]
  by_cases hr : c.refused = true
  · rw [if_pos hr, if_pos hr]
  · rw [if_neg hr, if_neg hr]
    exact prefix_nil

omit hi

/-- With a bounce generated, one is stored and complete exactly if its files could be
written and the headers it returns begin with the header block. -/
theorem Case.Notified.bounceStored_iff (h : c.Notified cfg q) :
    c.BounceStored cfg q ↔ c.draft.failed = false ∧ (cfg.bounceGen.includeOriginalHeaders → headerBlock (c.text.getD []) <+: (c.headers cfg).bytes) := by
  obtain ⟨t, u, hs, hr, hst⟩ := h.stored
  constructor
  · intro hbo
    obtain ⟨bounce, record, ht, hre, -, hret⟩ := hbo
    have hf : c.draft.failed = false := by
      cases hfa : c.draft.failed with
      | false => rfl
      | true => cases (h.lost hfa).symm.trans hre
    refine ⟨hf, fun hi => ?_⟩
    obtain ⟨headers, t', u', hs', hr', hbod, hb⟩ := hret hi
    obtain rfl := some.inj (hs.symm.trans hs')
    obtain rfl := some.inj (hr.symm.trans hr')
    have hsa := (hst hf).1.symm.trans ht
    rw [hbod] at hsa
    rwa [body_headers_injective (some.inj hsa)]
  · intro hc
    obtain ⟨hf, hb⟩ := hc
    obtain ⟨ht, record, hre, henv⟩ := hst hf
    refine ⟨_, record, ht, hre, by rw [henv]; rfl, fun hi => ?_⟩
    exact ⟨_, t, u, hs, hr, rfl, hb hi⟩

/-- A task that gives up its message does so for a reason exactly if the bounce, where
one is due, could be stored and returns the header block. -/
theorem Case.Exit.justified_iff (he : c.Exit cfg) : c.Justified cfg ↔ c.Accounted cfg := by
  cases he with
  | delivered response hv => exact iff_of_true (.inl ⟨response, hv⟩) (.inl ⟨response, hv⟩)
  | dropped q hl hnu => exact iff_of_true (.inr ⟨q, hl, .inl hnu⟩) (.inr ⟨q, hl, .inl hnu⟩)
  | bounced q hl hn =>
    refine or_congr_right (exists_congr fun q' => and_congr_right fun hq' => or_congr_right ?_)
    obtain rfl := some.inj (hl.symm.trans hq')
    rw [hn.bounceStored_iff]
    exact and_congr_right fun _ => forall_congr' fun hi => headers_prefix_iff hi

/-! ## The result -/

/-- **When a removal is justified.** -/
theorem removal_justified_iff {labels : Schedule} {s : Plant} {before after : List Happening}
    {pid : Nat} {m : Text} {p : Path} {u : Unit} (hrun : runRelay cfg labels = some s)
    (hlog : s.log = before ++ .did pid (.task m) (.unlink p) (.ok u) :: after) :
    (docketOf pid before).Justified cfg ↔ (docketOf pid before).Accounted cfg :=
  Exit.justified_iff (told_task (log_told hrun hlog)).2

/-! ## Two removals -/

def lastRemoval (log : List Happening) : Option (Nat × Text × Path) :=
  match log.getLast? with
  | some (.did pid (.task m) (.unlink p) (.ok _)) => some (pid, m, p)
  | _ => none

theorem eq_of_lastRemoval (h : lastRemoval log = some (pid, m, p)) :
    log = log.dropLast ++ [.did pid (.task m) (.unlink p) (.ok ())] := by
  unfold lastRemoval at h
  split at h
  · rename_i hl
    cases h
    obtain ⟨front, rfl⟩ := getLast?_eq_some_iff.mp hl
    rw [dropLast_concat]
  · cases h

/-- The remote host refuses the message for good, and the task generates a bounce. -/
def refusing (pid : Nat) : Schedule :=
  acts pid [.sent (.permFail "550 no such user"), .ok, .clock noon, .random 8, .clock noon, .random 9, .clock noon]

def bouncing : Schedule := receiving 0 ++ scanning 1 ++ loading 2 ++ marking 2 ++ handing 2 ++ refusing 2 ++
    acts 2 [.ok, .ok, .ok, .ok, .ok, .ok, .ok]

theorem removal_justified_bouncing : ∃ s before pid m p, runRelay smallRelay bouncing = some s ∧
      s.log = before ++ .did pid (.task m) (.unlink p) (.ok ()) :: [] ∧
      ((docketOf pid before).Justified smallRelay ↔ (docketOf pid before).Accounted smallRelay) := by
  obtain ⟨s, hs, hlast⟩ : ∃ s, runRelay smallRelay bouncing = some s ∧
      lastRemoval s.log = some (2, firstId, .metaPath firstId) := exists_of_any (by decide +kernel)
  have hlog := eq_of_lastRemoval hlast
  exact ⟨s, _, 2, firstId, _, hs, hlog, removal_justified_iff hs hlog⟩

/-- The `.msg` file of the bounce cannot be created, and the removal begins all the
same. -/
def losingBounce : Schedule := receiving 0 ++ scanning 1 ++ loading 2 ++ marking 2 ++ handing 2 ++ refusing 2 ++
    acts 2 [.ioError (.other "No space left on device"), .ok, .ok]

/-- **A message is removed although its bounce could not be stored.** -/
theorem unstored_bounce_removed : ∃ s before pid m p, runRelay smallRelay losingBounce = some s ∧
      s.log = before ++ .did pid (.task m) (.unlink p) (.ok ()) :: [] ∧
      ¬ (docketOf pid before).Justified smallRelay := by
  obtain ⟨s, hs, hlast, hrefused, hrecord, hsender⟩ : ∃ s, runRelay smallRelay losingBounce = some s ∧
      lastRemoval s.log = some (2, firstId, .metaPath firstId) ∧ (docketOf 2 s.log.dropLast).refused ∧
      (docketOf 2 s.log.dropLast).draft.record = none ∧
      (docketOf 2 s.log.dropLast).loaded.all (fun q => !isNullSender q.envelope.mailFrom) :=
    exists_of_any (by decide +kernel)
  refine ⟨s, _, 2, firstId, _, hs, eq_of_lastRemoval hlast, ?_⟩
  intro hjustified
  rcases hjustified with ⟨response, hverdict⟩ | ⟨q, hloaded, hnull | hstored⟩
  · rw [refused, hverdict] at hrefused
    cases hrefused
  · rw [hloaded, all_some, hnull] at hsender
    cases hsender
  · obtain ⟨_, _, -, hsome, -⟩ := hstored
    cases hrecord.symm.trans hsome

end ServerWall.Relay
