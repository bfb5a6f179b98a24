import SoloDock.Docker.Logs

/-!
# The log framer is a split into lines

`LogFramer` keeps what it has of an unfinished line between two chunks, for each of the two
streams. `framed_by_lines`: however the bytes of a stream were cut into chunks, and whatever
arrived on the other stream in between, its events are those of its lines, one by one.
-/

namespace SoloDock.Docker.Logs

open Lib

/-! ## Lines -/

/-- The pieces between newlines; the last one is not ended. -/
def pieces (bytes : Bytes) : List Bytes :=
  (Text.split 10 bytes).1 :: (Text.split 10 bytes).2

/-- The lines of a stream that has ended: what follows the last newline counts if there is
anything. -/
def linesOf (bytes : Bytes) : List Bytes :=
  (pieces bytes).dropLast ++ ((pieces bytes).getLast?.filter (· ≠ [])).toList

/-- A line as the framer keeps it: one that is too long is dropped. -/
def capped (line : Bytes) : LineState :=
  if maxRawLine < line.length then ⟨[], true⟩ else ⟨line, false⟩

/-! ## The loop -/

theorem feedAll_cons (state : LineState) (byte : UInt8) (rest : Bytes) :
    feedAll state (byte :: rest) =
      ((feedAll (feed state byte).1 rest).1,
        (feed state byte).2.toList ++ (feedAll (feed state byte).1 rest).2) :=
  rfl

theorem feed_capped (line : Bytes) {byte : UInt8} (h : byte ≠ 10) :
    feed (capped line) byte = (capped (line ++ [byte]), none) := by
  have hlength : (line ++ [byte]).length = line.length + 1 := List.length_append
  unfold feed capped
  rw [if_neg h]
  by_cases hlong : maxRawLine < line.length
  · rw [if_pos hlong, if_pos rfl, if_pos (by omega)]
  · rw [if_neg hlong, if_neg Bool.false_ne_true]
    split <;> rfl

/-- Behind a line that has begun, the first piece goes on with it. -/
theorem feedAll_capped (line bytes : Bytes) :
    let lines := (line ++ (Text.split 10 bytes).1) :: (Text.split 10 bytes).2
    feedAll (capped line) bytes = (capped (lines.getLast?.getD []), lines.dropLast.map capped) := by
  induction bytes generalizing line with
  | nil =>
    rw [Text.split, List.append_nil]
    rfl
  | cons byte bytes ih =>
    rw [feedAll_cons, Text.split]
    split
    next hbyte =>
      have hend : feed (capped line) 10 = (capped [], some (capped line)) := rfl
      rw [hbyte, hend, ih [], List.append_nil]
      rfl
    next hbyte =>
      rw [feed_capped line hbyte, ih, List.append_assoc]
      rfl

theorem feedAll_append (state : LineState) (bytes more : Bytes) :
    feedAll state (bytes ++ more) =
      ((feedAll (feedAll state bytes).1 more).1,
        (feedAll state bytes).2 ++ (feedAll (feedAll state bytes).1 more).2) := by
  induction bytes generalizing state with
  | nil => rfl
  | cons byte bytes ih => rw [List.cons_append, feedAll_cons, ih, feedAll_cons, List.append_assoc]

/-- A line that is not finished is shown, capped, unless it is empty. -/
theorem unfinished_capped (line : Bytes) :
    (capped line).unfinished = ((some line).filter (· ≠ [])).toList.map capped := by
  cases line with
  | nil => rfl
  | cons byte line =>
    have hne :
        ¬((capped (byte :: line)).bytes = [] ∧ (capped (byte :: line)).oversized = false) := by
      unfold capped
      split
      · exact fun h => Bool.noConfusion h.2
      · exact fun h => List.cons_ne_nil _ _ h.1
    exact if_neg hne

/-! ## Runs -/

/-- Bytes arriving on a stream; `now` is the clock at each line they end. -/
structure Push where
  stream : LogStreamKind
  chunk : Bytes
  now : Nat → String

/-- The bytes that arrived on a stream. -/
def received (stream : LogStreamKind) (pushes : List Push) : Bytes :=
  (pushes.filter (·.stream = stream)).flatMap (·.chunk)

/-- What the events of a stream show, in their order. -/
def LogStream.shownOn (s : LogStream) (stream : LogStreamKind) :
    List (List (Char × Origin) × Bool) :=
  s.emitted.filterMap fun e => if e.stream = stream then some (e.text, e.truncated) else none

/-- The line a stream is in the middle of. -/
def LogFramer.line (framer : LogFramer) : LogStreamKind → LineState
  | .stdout => framer.stdout
  | .stderr => framer.stderr
  | .unknown => .empty

section Run

variable (readTime : Bytes → Option String) (secrets : List Bytes)

/-- What is shown of one line, whenever it is read. -/
def shownLine (line : LineState) : List (Char × Origin) × Bool :=
  let event := formatLine readTime (normalizePatterns secrets) "" .stdout line.input line.oversized
  (event.text, event.truncated)

/-- A run of the framer over these chunks. -/
def framed (pushes : List Push) : LogStream :=
  play (LogStream.step readTime secrets) .start (pushes.map fun p => .push p.stream p.chunk p.now)

theorem shownOn_formatLines (framer : LogFramer) (now : Nat → String)
    (origin stream : LogStreamKind) (lines : List LineState) :
      LogStream.shownOn ⟨framer, formatLines readTime
      (normalizePatterns secrets) now origin lines⟩ stream =
      if origin = stream then lines.map (shownLine readTime secrets) else [] := by
  unfold LogStream.shownOn formatLines
  by_cases horigin : origin = stream
  · rw [if_pos horigin]
    induction lines generalizing now with
    | nil => rfl
    | cons line lines ih =>
      rw [List.mapIdx_cons, List.filterMap_cons, ih fun i => now (i + 1),
        if_pos (show (formatLine ..).stream = stream from horigin)]
      rfl
  · rw [if_neg horigin, List.filterMap_eq_nil_iff]
    intro event hevent
    obtain ⟨i, _, rfl⟩ := List.mem_mapIdx.mp hevent
    exact if_neg horigin

variable (s : LogStream) (now : Nat → String) {stream : LogStreamKind} (h : stream ≠ .unknown)

include h

/-- Bytes go to the line of their own stream. -/
theorem push_line (origin : LogStreamKind) (chunk : Bytes) :
    let next := s.step readTime secrets (.push origin chunk now)
    let fed := feedAll (s.framer.line stream) (if origin = stream then chunk else [])
    next.framer.line stream = fed.1 ∧
      next.shownOn stream = s.shownOn stream ++ fed.2.map (shownLine readTime secrets) := by
  have hshown := shownOn_formatLines readTime secrets s.framer now
  unfold LogStream.shownOn at hshown ⊢
  cases origin <;> cases stream <;>
    simp_all [LogStream.step, LogFramer.push, LogFramer.line, feedAll]

/-- The end of a stream shows the line that was not finished. -/
theorem finish_shown :
    (s.step readTime secrets (.finish now)).shownOn stream = s.shownOn stream ++
      (s.framer.line stream).unfinished.map (shownLine readTime secrets) := by
  have hshown := shownOn_formatLines readTime secrets s.framer now
  unfold LogStream.shownOn at hshown ⊢
  cases stream <;> simp_all [LogStream.step, LogFramer.finish, LogFramer.line]

/-- The framer has read what arrived on a stream as if it had come in one piece. -/
theorem framed_from (pushes : List Push) :
    let last := play (LogStream.step readTime secrets) s
      (pushes.map fun p => .push p.stream p.chunk p.now)
    let fed := feedAll (s.framer.line stream) (received stream pushes)
    last.framer.line stream = fed.1 ∧
      last.shownOn stream = s.shownOn stream ++ fed.2.map (shownLine readTime secrets) := by
  induction pushes generalizing s with
  | nil => exact ⟨rfl, (List.append_nil _).symm⟩
  | cons p pushes ih =>
    have hreceived : received stream (p :: pushes) =
        (if p.stream = stream then p.chunk else []) ++ received stream pushes := by
      by_cases hp : p.stream = stream <;> simp [received, hp]
    obtain ⟨hnext, hmore⟩ := push_line readTime secrets s p.now h p.stream p.chunk
    obtain ⟨hline, hshown⟩ := ih (s.step readTime secrets (.push p.stream p.chunk p.now))
    rw [hnext] at hline hshown
    rw [hmore] at hshown
    dsimp only
    rw [hreceived, feedAll_append, List.map_append, ← List.append_assoc]
    exact ⟨hline, hshown⟩

/-- However the bytes of the two streams are cut into chunks and mixed, once the streams have
ended the events of each show its lines, in order, and nothing else; and the framer never keeps
more than a line of the longest length. -/
theorem framed_by_lines (pushes : List Push) :
    ((framed readTime secrets pushes).step readTime secrets (.finish now)).shownOn stream =
      (linesOf (received stream pushes)).map
        (fun line => shownLine readTime secrets (capped line)) ∧
    ((framed readTime secrets pushes).framer.line stream).bytes.length ≤ maxRawLine := by
  obtain ⟨hline, hshown⟩ := framed_from readTime secrets .start h pushes
  have hstart : LogStream.start.framer.line stream = capped [] := by cases stream <;> rfl
  rw [hstart, feedAll_capped, List.nil_append, ← pieces] at hline hshown
  have hlast := List.getLast?_eq_some_getLast (l := pieces (received stream pushes))
    (List.cons_ne_nil _ _)
  rw [hlast, Option.getD_some] at hline
  rw [finish_shown readTime secrets _ now h, linesOf, List.map_append, hlast, framed, hline, hshown,
    unfinished_capped, List.map_map, List.map_map]
  refine ⟨rfl, ?_⟩
  unfold capped
  split <;> simp_all

end Run

/-- A line that came in two chunks, with a line of the other stream between them. -/
theorem cut_line_framed :
    ((framed (fun _ => none) [] [⟨.stdout, utf8Text ['h', 'e'], fun _ => ""⟩,
      ⟨.stderr, utf8Text ['x', '\n'], fun _ => ""⟩, ⟨.stdout, utf8Text ['y'], fun _ => ""⟩]).step
        (fun _ => none) [] (.finish fun _ => "")).shownOn .stdout =
      [(['h', 'e', 'y'].map (·, .copied), false)] :=
  (framed_by_lines _ _ _ (by decide) _).1.trans (by decide +kernel)

end SoloDock.Docker.Logs
