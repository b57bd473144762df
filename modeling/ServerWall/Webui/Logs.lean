import ServerWall.Lib.Wire

/-!
# The live log

`tail_file` (`serverwall-webui/src/routes/logs.rs`), from the end of the file on. However the reads cut
what is appended, the events are the lines that ended so far (`events_of_chunks`). `lossy` is
`String::from_utf8_lossy`.
-/

namespace ServerWall.Webui

open List Wire

/-- A round of the loop: what `read` returned, or that the receiver is gone. -/
inductive Round where
  | read (chunk : Bytes)
  | failed (error : Text)
  | closed

variable (lossy : Bytes → Text)

/-- The events of the complete lines of the buffer, and what stays in it. -/
def drainLines (buf : Bytes) : List Text × Bytes :=
  if (10 : UInt8) ∈ buf then
    let line := Text.trim (lossy (buf.take (buf.idxOf 10)))
    let (events, rest) := drainLines (buf.drop (buf.idxOf 10 + 1))
    (if line.isEmpty then events else line :: events, rest)
  else ([], buf)
termination_by buf.length
decreasing_by
  have := length_pos_of_mem ‹(10 : UInt8) ∈ buf›
  rw [length_drop]
  omega

def tailFile (buf : Bytes) : List Round → List Text
  | [] => []
  | .closed :: _ => []
  | .failed error :: _ => [Text.fmt ["\x7b\"error\":\"log read error: ", error, "\"\x7d"]]
  | .read chunk :: rounds =>
    if chunk.isEmpty then tailFile buf rounds
    else (drainLines lossy (buf ++ chunk)).1 ++ tailFile (drainLines lossy (buf ++ chunk)).2 rounds

/-- The texts of the lines that ended. -/
def shown (received : Bytes) : List Text :=
  ((pieces received).dropLast.map (Text.trim ∘ lossy)).filter (!·.isEmpty)

theorem shown_append (buf rest : Bytes) : shown lossy (buf ++ rest) =
    (drainLines lossy buf).1 ++ shown lossy ((drainLines lossy buf).2 ++ rest) := by
  fun_induction drainLines lossy buf with
  | case1 buf h line events left heq ih =>
    -- the first line ends at the first line feed
    obtain ⟨first, later, rfl, hfirst⟩ := eq_append_cons_of_mem h
    have hidx : (first ++ 10 :: later).idxOf 10 = first.length := by simp [idxOf_append, hfirst]
    have hline : line = Text.trim (lossy first) := by simp [line, hidx]
    have hlater : (first ++ 10 :: later).drop (first.length + 1) = later := by simp
    rw [hidx, hlater] at heq ih
    rw [heq] at ih
    rw [append_assoc, cons_append, shown, pieces, splitOn_append_cons_self_of_not_mem hfirst,
      dropLast_cons_of_ne_nil (splitOn_ne_nil 10 _), map_cons, filter_cons, ← pieces, ← shown, ih,
      Function.comp_apply, hline]
    cases (Text.trim (lossy first)).isEmpty <;> rfl
  | case2 buf h => rfl

theorem shown_of_not_mem (h : (10 : UInt8) ∉ buf) : shown lossy buf = [] := by
  rw [shown, pieces, splitOn_eq_singleton h]
  rfl

theorem lf_not_mem_drainLines (buf : Bytes) : (10 : UInt8) ∉ (drainLines lossy buf).2 := by
  fun_induction drainLines lossy buf with
  | case1 buf h line events left heq ih => rwa [heq] at ih
  | case2 buf h => exact h

/-- **The live log.** -/
theorem events_of_chunks (chunks : List Bytes) :
    tailFile lossy [] (chunks.map .read) = shown lossy chunks.flatten := by
  -- what the buffer holds between two rounds is the line that has not ended
  suffices h : ∀ buf, (10 : UInt8) ∉ buf →
      tailFile lossy buf (chunks.map .read) = shown lossy (buf ++ chunks.flatten) by
    exact h [] not_mem_nil
  induction chunks with
  | nil =>
    intro buf hbuf
    rw [flatten_nil, append_nil, shown_of_not_mem lossy hbuf]
    rfl
  | cons chunk chunks ih =>
    intro buf hbuf
    rw [map_cons, tailFile, flatten_cons]
    split
    · next hempty => rw [isEmpty_iff.mp hempty, nil_append, ih buf hbuf]
    · rw [ih _ (lf_not_mem_drainLines lossy _), ← append_assoc, ← shown_append]

end ServerWall.Webui
