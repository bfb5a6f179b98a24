import Mathlib.Data.List.Basic

/-!
# Resuming a log stream

`logs` of `src/api/streams.rs`: an event's id is the time of its line and how many lines of that
time in a row the stream sent before it. A client that reconnects sends its last id back. Docker
is asked for the lines from that second on, and those before the time are skipped; the ordinal
is not looked at, so the line of the id comes again whenever Docker returns it.

What Docker returns is a parameter, and `DockerLogs` what is assumed of it. Chunks, redaction and
the text of the events are in `Docker.Logs`; here a stream is that of all the lines it is given.
-/

namespace SoloDock.Docker.Resume

/-- `LogCursor`; times are in nanoseconds. -/
structure LogCursor where
  unixNanos : Int
  ordinal : Nat
deriving DecidableEq

/-- A line of the container's log: its place there, the time Docker gave it, and whether it is
too long for the framer. -/
structure Line where
  index : Nat
  nanos : Int
  oversized : Bool
deriving DecidableEq

/-- `LogsQuery`; `some none` is a `since` that is no time. -/
structure LogsQuery where
  tail : Option Nat
  since : Option (Option Int)

structure LogRequest where
  tail : Nat
  sinceSeconds : Option Int

inductive LogsError where
  | appNotFound | invalidQuery | streamLimit
  | docker (code : String)
deriving DecidableEq

/-- What a request finds: the catalog, the gate, the probe, the app's container, Docker, and the
clock that reads the lines. -/
structure Server where
  appKnown : Bool
  permit : Bool
  ready : Except LogsError Unit
  ownedContainer : Except LogsError String
  docker : String → LogRequest → Except LogsError (List Line)
  clock : Line → Int

/-- The query and the cursor are within a day, and five minutes ahead. -/
def recent (now time : Int) : Bool := now - 86400000000000 ≤ time && time ≤ now + 300000000000

/-- `since`, moved on to the cursor. -/
def sinceCursor (since : Option Int) : Option LogCursor → Option Int
  | some cursor => some (since.elim cursor.unixNanos (max · cursor.unixNanos))
  | none => since

/-- The checks of `logs` up to the request to Docker; `some none` is a header that is no id. -/
def logRequest (server : Server) (now : Int) (query : Option LogsQuery)
    (lastEventId : Option (Option LogCursor)) : Except LogsError (Option LogCursor × LogRequest) :=
  if !server.appKnown then .error .appNotFound
  else match query with
  | none => .error .invalidQuery
  | some query =>
    let tail := query.tail.getD 200
    if ¬(1 ≤ tail ∧ tail ≤ 500) then .error .invalidQuery
    else if query.since.any (·.all fun time => !recent now time) then .error .invalidQuery
    else if lastEventId.any (·.all fun cursor => !recent now cursor.unixNanos) then
      .error .invalidQuery
    else
      let cursor := lastEventId.join
      .ok (cursor, ⟨tail, (sinceCursor query.since.join cursor).map (· / 1000000000)⟩)

/-- The timestamp of `format_line`: an oversized line has lost its own. -/
def stamp (clock : Line → Int) (line : Line) : Int :=
  if line.oversized then clock line else line.nanos

/-- The events of these lines; `last` is the id before them, and an ordinal is a `u32`. -/
def number (clock : Line → Int) : Option LogCursor → List Line → List (LogCursor × Line)
  | _, [] => []
  | last, line :: rest =>
    let nanos := stamp clock line
    let ordinal := match last with
      | some c => if nanos = c.unixNanos then min (c.ordinal + 1) 4294967295 else 0
      | none => 0
    (⟨nanos, ordinal⟩, line) :: number clock (some ⟨nanos, ordinal⟩) rest

/-- The events of a stream that Docker gives these lines. -/
def send (clock : Line → Int) (cursor : Option LogCursor) (lines : List Line) :
    List (LogCursor × Line) :=
  number clock none (lines.filter fun line => !cursor.any (stamp clock line < ·.unixNanos))

/-- The events of a request, or its refusal. -/
def logs (server : Server) (now : Int) (query : Option LogsQuery)
    (lastEventId : Option (Option LogCursor)) : Except LogsError (List (LogCursor × Line)) := do
  let (cursor, request) ← logRequest server now query lastEventId
  if !server.permit then throw .streamLimit
  server.ready
  let container ← server.ownedContainer
  let lines ← server.docker container request
  return send server.clock cursor lines

/-- Docker's answer, as its interface has it: of the last `tail` lines those from `since` on, in
order. -/
structure DockerLogs (log : List Line) (r : LogRequest) (lines : List Line) : Prop where
  inOrder : lines.Sublist log
  returned : ∀ line ∈ log, line ∈ lines ↔
    (∀ s, r.sinceSeconds = some s → s * 1000000000 ≤ line.nanos) ∧
      log.countP (line.index < ·.index) < r.tail

variable {clock : Line → Int}

/-- Numbering leaves the lines as they are. -/
theorem number_lines (last : Option LogCursor) (lines : List Line) :
    (number clock last lines).map Prod.snd = lines := by
  induction lines generalizing last with
  | nil => rfl
  | cons line rest ih => simp [number, ih]

/-- A cursor has the time of its line. -/
theorem number_nanos {last : Option LogCursor} {lines : List Line} {e : LogCursor × Line}
    (h : e ∈ number clock last lines) : e.1.unixNanos = stamp clock e.2 := by
  induction lines generalizing last with
  | nil => cases h
  | cons line rest ih =>
    rcases List.mem_cons.mp h with rfl | h
    · rfl
    · exact ih h

theorem mem_send {cursor : LogCursor} {lines : List Line} {line : Line} :
    line ∈ (send clock (some cursor) lines).map Prod.snd ↔
      line ∈ lines ∧ cursor.unixNanos ≤ stamp clock line := by
  simp [send, number_lines]

/-- The request to Docker of a reconnect that is accepted. -/
theorem logRequest_ok {server : Server} {now : Int} {query : LogsQuery} {id : LogCursor}
    {cursor : Option LogCursor} {r : LogRequest}
    (h : logRequest server now (some query) (some (some id)) = .ok (cursor, r)) :
    cursor = some id ∧ r = ⟨query.tail.getD 200,
      (sinceCursor query.since.join (some id)).map (· / 1000000000)⟩ := by
  simp only [logRequest] at h
  split at h
  · cases h
  · split at h
    · cases h
    · split at h
      · cases h
      · split at h <;> cases h
        exact ⟨rfl, rfl⟩

/-- A reconnect is refused, or its events are those of Docker's lines from the id on. -/
theorem logs_cases (server : Server) (now : Int) (query : LogsQuery) (id : LogCursor) :
    (∃ error, logs server now (some query) (some (some id)) = .error error) ∨
      ∃ container lines, server.docker container ⟨query.tail.getD 200,
          (sinceCursor query.since.join (some id)).map (· / 1000000000)⟩ = .ok lines ∧
        logs server now (some query) (some (some id)) =
          .ok (send server.clock (some id) lines) := by
  unfold logs
  cases hrequest : logRequest server now (some query) (some (some id)) with
  | error e => exact .inl ⟨e, rfl⟩
  | ok request =>
    obtain ⟨cursor, r⟩ := request
    obtain ⟨rfl, rfl⟩ := logRequest_ok hrequest
    cases server.permit with
    | false => exact .inl ⟨_, rfl⟩
    | true =>
      cases server.ready with
      | error e => exact .inl ⟨e, rfl⟩
      | ok _ =>
        cases server.ownedContainer with
        | error e => exact .inl ⟨e, rfl⟩
        | ok container =>
          cases hlines : server.docker container ⟨query.tail.getD 200,
              (sinceCursor query.since.join (some id)).map (· / 1000000000)⟩ with
          | error e => exact .inl ⟨e, by simp [hlines, bind, Except.bind]⟩
          | ok lines =>
            exact .inr ⟨container, lines, hlines,
              by simp [hlines, bind, Except.bind, pure, Except.pure]⟩

/-- Nothing that was sent up to the id comes again just when the reconnect is refused, the whole
second of `since` is after the line of the id, or `tail` lines follow that line. -/
theorem nothing_again_iff (log given : List Line) (clock : Line → Int) (first : Option LogCursor)
    {sent rest : List (LogCursor × Line)} {id : LogCursor} {line : Line}
    (hlog : log.Pairwise fun a b => a.index < b.index ∧ a.nanos ≤ b.nanos)
    (hgiven : given.Sublist log) (hsent : send clock first given = sent ++ (id, line) :: rest)
    (server : Server) (hclock : ∀ line ∈ log, id.unixNanos ≤ server.clock line)
    (hdocker : ∀ container r lines, server.docker container r = .ok lines → DockerLogs log r lines)
    (now : Int) (query : LogsQuery) :
    let since := query.since.join.elim id.unixNanos (max · id.unixNanos)
    (∀ events, logs server now (some query) (some (some id)) = .ok events →
        ∀ e ∈ sent ++ [(id, line)], e.2 ∉ events.map Prod.snd) ↔
      (∃ error, logs server now (some query) (some (some id)) = .error error) ∨
        line.nanos < since / 1000000000 * 1000000000 ∨
        query.tail.getD 200 ≤ log.countP (line.index < ·.index) := by
  intro since
  have hid : id.unixNanos = stamp clock line :=
    number_nanos (hsent ▸ List.mem_append_right sent List.mem_cons_self)
  have hlines := congrArg (List.map Prod.snd) hsent
  rw [send, number_lines, List.map_append, List.map_cons] at hlines
  have hsub := hlines ▸ List.filter_sublist.trans hgiven
  have hordered := List.pairwise_append.mp (hlog.sublist hsub)
  have hmem : line ∈ log := hsub.subset (by simp)
  rcases logs_cases server now query id with ⟨error, herror⟩ | ⟨container, lines, hanswer, hok⟩
  · simp [herror]
  have hanswers := hdocker _ _ _ hanswer
  -- Docker returns a line when the second and the tail allow it
  have hreturned : ∀ line ∈ log, line ∈ lines ↔ since / 1000000000 * 1000000000 ≤ line.nanos ∧
      log.countP (line.index < ·.index) < query.tail.getD 200 := by
    intro line hline
    simpa [sinceCursor] using hanswers.returned line hline
  simp only [hok, Except.ok.injEq, reduceCtorEq, exists_false, false_or, forall_eq', mem_send]
  constructor
  · intro h
    by_contra hneither
    rw [not_or, Int.not_lt, Nat.not_le] at hneither
    refine h (id, line) (by simp) ⟨(hreturned line hmem).mpr hneither, ?_⟩
    -- the line has its own time again, or the clock's
    rw [stamp]
    split
    · exact hclock line hmem
    next hshort =>
      exact Int.le_of_eq (by rw [hid, stamp, if_neg hshort])
  · rintro h e he ⟨hin, -⟩
    have hback := (hreturned e.2 (hanswers.inOrder.subset hin)).mp hin
    -- a line that was sent is the id's or stands before it, with a time that is not later
    have hbefore : e.2.index ≤ line.index ∧ e.2.nanos ≤ line.nanos := by
      rcases List.mem_append.mp he with he | he
      · have := hordered.2.2 e.2 (List.mem_map_of_mem he) line List.mem_cons_self
        exact ⟨Nat.le_of_lt this.1, this.2⟩
      · rw [List.mem_singleton.mp he]
        exact ⟨Nat.le_refl _, Int.le_refl _⟩
    have hmore : log.countP (line.index < ·.index) ≤ log.countP (e.2.index < ·.index) :=
      List.countP_mono_left fun l _ hl => by simp at hl ⊢; omega
    omega

/-! ## Two lines of one time -/

/-- A log of two lines of one time. -/
def twoLines : List Line := [⟨0, 5, false⟩, ⟨1, 5, false⟩]

/-- A server that answers everything; Docker has this log. -/
def servesLog (log : List Line) : Server where
  appKnown := true
  permit := true
  ready := .ok ()
  ownedContainer := .ok "c"
  docker _ r := .ok (log.filter fun line =>
    r.sinceSeconds.all (· * 1000000000 ≤ line.nanos) && log.countP (line.index < ·.index) < r.tail)
  clock _ := 7000000000

theorem servesLog_docker (log : List Line) (container : String) (r : LogRequest)
    (lines : List Line) (h : (servesLog log).docker container r = .ok lines) :
    DockerLogs log r lines := by
  cases h
  refine ⟨List.filter_sublist, fun line hline => ?_⟩
  simp [List.mem_filter, hline, Option.all_eq_true]

/-- With a tail of one line the first of the two does not come again, since the other follows. -/
theorem nothing_again_past_tail :
    (logs (servesLog twoLines) 5 (some ⟨some 1, none⟩) (some (some ⟨5, 0⟩))).isOk = true ∧
    ∀ events, logs (servesLog twoLines) 5 (some ⟨some 1, none⟩) (some (some ⟨5, 0⟩)) = .ok events →
      ∀ e ∈ [] ++ [((⟨5, 0⟩ : LogCursor), (⟨0, 5, false⟩ : Line))],
        e.2 ∉ events.map Prod.snd :=
  ⟨rfl, (nothing_again_iff twoLines twoLines (fun _ => 0) none (by decide) (.refl _) rfl
    (servesLog twoLines) (by decide) (servesLog_docker twoLines) 5 ⟨some 1, none⟩).mpr
      (.inr (.inr (by decide)))⟩

/-- Two lines of one time are sent again to a client that has both. -/
theorem lines_sent_again :
    (logs (servesLog twoLines) 5 (some ⟨none, none⟩) none).toOption =
        some [(⟨5, 0⟩, ⟨0, 5, false⟩), (⟨5, 1⟩, ⟨1, 5, false⟩)] ∧
      (logs (servesLog twoLines) 5 (some ⟨none, none⟩) (some (some ⟨5, 1⟩))).toOption =
        some [(⟨5, 0⟩, ⟨0, 5, false⟩), (⟨5, 1⟩, ⟨1, 5, false⟩)] := by
  decide

end SoloDock.Docker.Resume
