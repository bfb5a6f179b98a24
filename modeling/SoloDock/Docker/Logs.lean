import SoloDock.Lib.History
import SoloDock.Lib.Text
import SoloDock.Lib.Utf8

/-!
# Container logs without secrets

`docker/logs.rs`: the framer cuts the stdout and stderr bytes of a container into
lines, `redactOnce` replaces the known secrets in a line, and the rest is decoded,
stripped of control sequences and cut to length.

The model carries along, with each byte and character of a line, whether it was copied
from the container or belongs to a replacement marker (`Origin`); the code has no such
tag, and `LogEvent.message` forgets it.

Redaction itself leaves no secret (`redactLoop_clear`). The steps after it remove
characters and so can put one back together: `secret_reassembled`. `no_secret_disclosed`
says when they do not.
-/

namespace SoloDock.Docker.Logs

open Lib
open List (append_eq_nil_iff append_nil length_append length_map mem_append mem_cons mem_cons_of_mem
  mem_cons_self mem_map mem_singleton nil_prefix)

/-! ## The code -/

def maxRawLine : Nat := 64 * 1024

def maxMessage : Nat := 16 * 1024

def maxRedactedBytes : Nat := 64 * 1024

def omitted : List Char := "[line omitted: too long]".toList

def redacted : List Char := "[REDACTED]".toList

/-- Where a byte of a log message comes from. -/
inductive Origin where
  | copied | marker
deriving DecidableEq, Repr

/-- The order of the patterns: longer ones first, equal lengths by content. -/
def patternLe (left right : Bytes) : Bool :=
  right.length < left.length || (left.length = right.length && left ≤ right)

/-- One step of the pattern sort. -/
def insertPattern (pattern : Bytes) : List Bytes → List Bytes
  | [] => [pattern]
  | other :: rest =>
    if patternLe pattern other then pattern :: other :: rest
    else other :: insertPattern pattern rest

/-- Equal neighbours are kept once. -/
def dedup : List Bytes → List Bytes
  | [] => []
  | [p] => [p]
  | p :: q :: rest => if p = q then dedup (q :: rest) else p :: dedup (q :: rest)

/-- `strip_suffix(b"\r")`. -/
def stripReturn (line : Bytes) : Bytes :=
  if line.getLast? = some 13 then line.dropLast else line

/-- The lines of a secret. -/
def secretLines (secret : Bytes) : List Bytes :=
  let pieces := Text.split 10 secret
  (pieces.1 :: pieces.2).map stripReturn

/-- What is looked for because of one secret: its lines and itself. -/
def secretPatterns (secret : Bytes) : List Bytes :=
  if secret = [] then []
  else (secretLines secret).filter (fun line => line ≠ [] && line ≠ secret) ++ [secret]

def normalizePatterns (secrets : List Bytes) : List Bytes :=
  dedup ((secrets.flatMap secretPatterns).foldr insertPattern [])

/-- The part of the replacement marker that fits into `room` bytes. -/
def markerIn (room : Nat) : List (UInt8 × Origin) :=
  ((utf8Text redacted).take room).map (·, .marker)

/-- The loop of `redact_once`, with the room left in the result. Every round adds at least
one byte to it, so as many rounds as there is room are enough. -/
def redactLoop (patterns : List Bytes) : (rounds room : Nat) → Bytes → List (UInt8 × Origin)
  | 0, _, _ => []
  | _ + 1, 0, _ => []
  | _ + 1, _ + 1, [] => []
  | rounds + 1, room + 1, b :: rest =>
    match patterns.find? (·.isPrefixOf (b :: rest)) with
    | some pattern =>
      markerIn (room + 1) ++ redactLoop patterns rounds (room + 1 - (markerIn (room + 1)).length)
        ((b :: rest).drop pattern.length)
    | none => (b, .copied) :: redactLoop patterns rounds room rest

def redactOnce (input : Bytes) (patterns : List Bytes) (limit : Nat) : List (UInt8 × Origin) :=
  redactLoop patterns limit limit input

def isControl (c : Char) : Bool :=
  c.toNat < 0x20 || (0x7F ≤ c.toNat && c.toNat < 0xA0)

def escape : Char := Char.ofNat 0x1B

/-- After `ESC [`: up to and with the first ASCII letter. -/
def skipCsi : List (Char × Origin) → List (Char × Origin)
  | [] => []
  | x :: rest => if x.1.isAlpha then rest else skipCsi rest

/-- After `ESC ]`: up to and with BEL or `ESC \`. -/
def skipOsc : List (Char × Origin) → List (Char × Origin)
  | [] => []
  | [_] => []
  | x :: y :: rest =>
    if x.1.toNat = 7 then y :: rest
    else if x.1 = escape ∧ y.1 = '\\' then rest
    else skipOsc (y :: rest)

/-- The loop of `clean_text`; every round consumes at least one character. -/
def cleanLoop : Nat → List (Char × Origin) → List (Char × Origin)
  | 0, _ => []
  | _ + 1, [] => []
  | rounds + 1, x :: rest =>
    if x.1 = escape then
      match rest with
      | [] => []
      | y :: rest =>
        if y.1 = '[' then cleanLoop rounds (skipCsi rest)
        else if y.1 = ']' then cleanLoop rounds (skipOsc rest)
        else cleanLoop rounds rest
    else if x.1 = '\t' ∨ isControl x.1 = false then x :: cleanLoop rounds rest
    else cleanLoop rounds rest

def cleanText (text : List (Char × Origin)) : List (Char × Origin) :=
  cleanLoop text.length text

/-- The characters that fit into `room` bytes. -/
def takeBytes (room : Nat) : List (Char × Origin) → List (Char × Origin)
  | [] => []
  | x :: rest =>
    if (utf8 x.1).length ≤ room then x :: takeBytes (room - (utf8 x.1).length) rest else []

def truncateUtf8 (text : List (Char × Origin)) (maxBytes : Nat) : List (Char × Origin) × Bool :=
  if (spell text).length ≤ maxBytes then (text, false) else (takeBytes maxBytes text, true)

inductive LogStreamKind where
  | stdout | stderr | unknown
deriving DecidableEq, Repr

structure LogEvent where
  timestamp : String
  stream : LogStreamKind
  text : List (Char × Origin)
  truncated : Bool
deriving DecidableEq, Repr

/-- The message the client sees. -/
def LogEvent.message (event : LogEvent) : String := String.ofList (event.text.map (·.1))

/-- The part of a line before its first space. -/
def beforeSpace (raw : Bytes) : Option (Bytes × Bytes) :=
  let pieces := Text.split 32 raw
  if pieces.2 = [] then none else some (pieces.1, raw.drop (pieces.1.length + 1))

/-- `split_timestamp`; `readTime` is the RFC 3339 reader of the `time` crate, whose result is
written out again in the event. -/
def splitTimestamp (readTime : Bytes → Option String) (raw : Bytes) : Option (String × Bytes) := do
  let (word, message) ← beforeSpace raw
  let timestamp ← readTime word
  return (timestamp, message)

/-- The part of a line that is its message. -/
def messageOf (readTime : Bytes → Option String) (raw : Bytes) : Bytes :=
  match splitTimestamp readTime raw with
  | some (_, message) => message
  | none => raw

/-- `format_line`, at the time `now`. -/
def formatLine (readTime : Bytes → Option String) (patterns : List Bytes) (now : String)
    (stream : LogStreamKind) (raw : Bytes) (oversized : Bool) : LogEvent :=
  let timestamp := match splitTimestamp readTime raw with
    | some (timestamp, _) => timestamp
    | none => now
  let bytes := if oversized then (utf8Text omitted).map (·, .copied)
    else redactOnce (messageOf readTime raw) patterns maxRedactedBytes
  let cut := truncateUtf8 (cleanText (unspell bytes)) maxMessage
  { timestamp, stream, text := cut.1, truncated := oversized || cut.2 }

structure LineState where
  bytes : Bytes
  oversized : Bool
deriving DecidableEq

def LineState.empty : LineState := ⟨[], false⟩

/-- What a line state is formatted from. -/
def LineState.input (state : LineState) : Bytes :=
  if state.oversized then utf8Text omitted else state.bytes

/-- One byte of the loop of `push`: the new state, and the line it completed. -/
def feed (state : LineState) (byte : UInt8) : LineState × Option LineState :=
  if byte = 10 then (.empty, some state)
  else if state.oversized then (state, none)
  else if (state.bytes ++ [byte]).length > maxRawLine then (⟨[], true⟩, none)
  else (⟨state.bytes ++ [byte], false⟩, none)

/-- The lines a chunk completes, and what is left of the last one. -/
def feedAll (state : LineState) : Bytes → LineState × List LineState
  | [] => (state, [])
  | byte :: rest =>
    let (next, line) := feed state byte
    let (last, lines) := feedAll next rest
    (last, line.toList ++ lines)

structure LogFramer where
  stdout : LineState
  stderr : LineState
deriving DecidableEq

section Framer

variable (readTime : Bytes → Option String) (patterns : List Bytes)

/-- The events of the lines a chunk completed; `now` is the clock at each of them. -/
def formatLines (now : Nat → String) (stream : LogStreamKind) (lines : List LineState) :
    List LogEvent :=
  lines.mapIdx fun i line =>
    formatLine readTime patterns (now i) stream line.input line.oversized

def LogFramer.push (framer : LogFramer) (stream : LogStreamKind) (chunk : Bytes)
    (now : Nat → String) : LogFramer × List LogEvent :=
  match stream with
  | .stdout =>
    let (state, lines) := feedAll framer.stdout chunk
    ({ framer with stdout := state }, formatLines readTime patterns now .stdout lines)
  | .stderr =>
    let (state, lines) := feedAll framer.stderr chunk
    ({ framer with stderr := state }, formatLines readTime patterns now .stderr lines)
  | .unknown => (framer, [])

/-- The unfinished line of a stream, if there is one. -/
def LineState.unfinished (state : LineState) : List LineState :=
  if state.bytes = [] ∧ state.oversized = false then [] else [state]

def LogFramer.finish (framer : LogFramer) (now : Nat → String) : LogFramer × List LogEvent :=
  (⟨.empty, .empty⟩,
    formatLines readTime patterns now .stdout framer.stdout.unfinished
      ++ formatLines readTime patterns now .stderr framer.stderr.unfinished)

end Framer

/-! ## Redaction leaves no secret -/

theorem redacted_length : (utf8Text redacted).length = 10 := by decide

theorem markerIn_length (room : Nat) : (markerIn room).length = min room 10 := by
  rw [markerIn, length_map, List.length_take, redacted_length]

variable {room : Nat}

theorem markerIn_origin : ∀ x ∈ markerIn room, x.2 = .marker := by
  intro x hx
  obtain ⟨b, _, rfl⟩ := mem_map.mp hx
  rfl

variable {patterns : List Bytes}

section Loop

variable {rounds room : Nat} {b : UInt8} {rest : Bytes}

theorem redactLoop_some {pattern : Bytes}
    (h : patterns.find? (·.isPrefixOf (b :: rest)) = some pattern) :
    redactLoop patterns (rounds + 1) (room + 1) (b :: rest) =
      markerIn (room + 1) ++ redactLoop patterns rounds
        (room + 1 - (markerIn (room + 1)).length) ((b :: rest).drop pattern.length) := by
  rw [redactLoop, h]

theorem redactLoop_none (h : patterns.find? (·.isPrefixOf (b :: rest)) = none) :
    redactLoop patterns (rounds + 1) (room + 1) (b :: rest) =
      (b, .copied) :: redactLoop patterns rounds room rest := by
  rw [redactLoop, h]

end Loop

variable {input x : Bytes} {items : List (Char × Origin)}
  {tail copied rest before run after : List (UInt8 × Origin)} {ps : List Bytes}

theorem markerIn_append_ne {x : UInt8 × Origin}
    (h : markerIn (room + 1) ++ tail = (x :: copied) ++ rest)
    (hx : x.2 = .copied) : False := by
  cases hm : markerIn (room + 1) with
  | nil =>
    have := congrArg List.length hm
    rw [markerIn_length, List.length_nil] at this
    omega
  | cons y ys =>
    rw [hm] at h
    obtain ⟨rfl, _⟩ := List.cons.inj h
    have hmem : y ∈ markerIn (room + 1) := by simp [hm]
    have := markerIn_origin y hmem
    rw [hx] at this
    cases this

theorem redactLoop_copied {rounds : Nat}
    (h : redactLoop patterns rounds room input = copied ++ rest)
    (hcopied : ∀ x ∈ copied, x.2 = .copied) : copied.map Prod.fst <+: input := by
  induction rounds generalizing room input copied with
  | zero =>
    obtain ⟨rfl, _⟩ := append_eq_nil_iff.mp h.symm
    exact nil_prefix
  | succ rounds ih =>
    cases copied with
    | nil => exact nil_prefix
    | cons x copied =>
      match room, input with
      | 0, _ | _ + 1, [] => exact nomatch h
      | room + 1, b :: tail =>
        cases hfind : patterns.find? (·.isPrefixOf (b :: tail)) with
        | some pattern =>
          rw [redactLoop_some hfind] at h
          exact (markerIn_append_ne h (hcopied x mem_cons_self)).elim
        | none =>
          rw [redactLoop_none hfind] at h
          obtain ⟨rfl, hrest⟩ := List.cons.inj h
          have htail := ih hrest fun y hy => hcopied y (mem_cons_of_mem _ hy)
          exact List.cons_prefix_cons.mpr ⟨rfl, htail⟩

theorem after_marker {marker : List (UInt8 × Origin)}
    (h : marker ++ tail = before ++ (run ++ after)) (hmarker : ∀ x ∈ marker, x.2 = .marker)
    (hrun : ∀ x ∈ run, x.2 = .copied) (hne : run ≠ []) :
    ∃ before', tail = before' ++ (run ++ after) := by
  induction marker generalizing before with
  | nil => exact ⟨before, h⟩
  | cons y marker ih =>
    cases before with
    | nil =>
      cases run with
      | nil => exact absurd rfl hne
      | cons x run =>
        obtain ⟨rfl, _⟩ := List.cons.inj h
        have := (hmarker y mem_cons_self).symm.trans (hrun y mem_cons_self)
        cases this
    | cons z before =>
      obtain ⟨_, hrest⟩ := List.cons.inj h
      exact ih hrest fun x hx => hmarker x (mem_cons_of_mem _ hx)

theorem redactLoop_clear {rounds : Nat}
    (h : redactLoop patterns rounds room input = before ++ (run ++ after))
    (hrun : ∀ x ∈ run, x.2 = .copied) (hne : run ≠ []) : run.map Prod.fst ∉ patterns := by
  intro hmem
  induction rounds generalizing room input before with
  | zero =>
    have := append_eq_nil_iff.mp h.symm
    exact hne (append_eq_nil_iff.mp this.2).1
  | succ rounds ih =>
    match room, input with
    | 0, _ | _ + 1, [] =>
      have := append_eq_nil_iff.mp h.symm
      exact hne (append_eq_nil_iff.mp this.2).1
    | room + 1, b :: tail =>
      cases hfind : patterns.find? (·.isPrefixOf (b :: tail)) with
      | some pattern =>
        rw [redactLoop_some hfind] at h
        obtain ⟨before', h'⟩ := after_marker h markerIn_origin hrun hne
        exact ih h'
      | none =>
        cases before with
        | nil =>
          -- the run starts here, so the input does, but no pattern does
          have hpre : run.map Prod.fst <+: b :: tail := redactLoop_copied h hrun
          have hno := List.find?_eq_none.mp hfind _ hmem
          exact hno (List.isPrefixOf_iff_prefix.mpr hpre)
        | cons y before =>
          rw [redactLoop_none hfind] at h
          exact ih (List.cons.inj h).2

/-! ## Redaction of a readable text -/

/-- A character that `clean_text` keeps. -/
def Kept (c : Char) : Prop := c = '\t' ∨ isControl c = false

theorem redactLoop_zero (patterns : List Bytes) (rounds : Nat) (input : Bytes) :
    redactLoop patterns rounds 0 input = [] := by
  cases rounds <;> rfl

theorem redactLoop_copy {bytes rest : Bytes} (hno : ∀ x b y, bytes = x ++ b :: y →
      patterns.find? (·.isPrefixOf (b :: (y ++ rest))) = none)
    {rounds room : Nat} (h : room ≤ rounds) : redactLoop patterns rounds room (bytes ++ rest) =
      (bytes.map (·, .copied)).take room
        ++ redactLoop patterns (rounds - bytes.length) (room - bytes.length) rest := by
  induction bytes generalizing rounds room with
  | nil => simp
  | cons b bytes ih =>
    match room, rounds with
    | 0, rounds => simp [redactLoop_zero]
    | room + 1, rounds + 1 =>
      have hnone := hno [] b bytes rfl
      have hih := ih (fun x c y hsplit => hno (b :: x) c y (by rw [hsplit]; rfl))
        (Nat.le_of_succ_le_succ h)
      rw [List.cons_append, redactLoop_none hnone, hih]
      simp

theorem find?_inside (hne : ∀ p ∈ patterns, p ≠ [])
    (hreadable : ∀ p ∈ patterns, p <:+: input → ∃ ps, p = utf8Text ps) {b : UInt8} {rest : Bytes}
    (hb : isContinuation b.toNat = true) (hsuffix : b :: rest <:+ input) :
    patterns.find? (·.isPrefixOf (b :: rest)) = none := by
  refine List.find?_eq_none.mpr fun p hp hpre => ?_
  have hpre : p <+: b :: rest := List.isPrefixOf_iff_prefix.mp hpre
  obtain ⟨ps, rfl⟩ := hreadable p hp (hpre.isInfix.trans hsuffix.isInfix)
  cases ps with
  | nil => exact hne _ hp rfl
  | cons c ps =>
    obtain ⟨b', bs, hbytes, hfirst, _⟩ := utf8_eq_cons c
    obtain ⟨t, ht⟩ := hpre
    have hhead : b' = b := by
      have : (utf8 c ++ utf8Text ps) ++ t = b :: rest := ht
      rw [hbytes] at this
      exact (List.cons.inj this).1
    rw [hhead, hb] at hfirst
    cases hfirst

theorem spell_map (text : List Char) (o : Origin) :
    spell (text.map (·, o)) = (utf8Text text).map (·, o) := by
  induction text with
  | nil => rfl
  | cons c text ih =>
    rw [List.map_cons, spell_cons, ih]
    simp [utf8Text]

/-- The marker as characters. -/
def markerText : List (Char × Origin) := redacted.map (·, .marker)

theorem markerText_kept : ∀ x ∈ markerText, Kept x.1 := by
  intro x hx
  obtain ⟨c, hc, rfl⟩ := mem_map.mp hx
  have hall : redacted.all (fun c => !isControl c) = true := by decide
  exact .inr (by simpa using List.all_eq_true.mp hall c hc)

/-- Redacting a readable text with readable patterns gives a readable text, cut to the
room there is. -/
theorem redactLoop_text (hne : ∀ p ∈ patterns, p ≠ []) :
    ∀ (n : Nat) (text : List Char), text.length ≤ n → (∀ c ∈ text, Kept c) →
      (∀ p ∈ patterns, p <:+: utf8Text text → ∃ ps, p = utf8Text ps) →
      ∀ rounds room : Nat, room ≤ rounds →
      ∃ items, (∀ x ∈ items, Kept x.1) ∧
        redactLoop patterns rounds room (utf8Text text) = (spell items).take room
  | _, [], _, _, _, rounds, room, _ => by
    refine ⟨[], nofun, ?_⟩
    match rounds, room with
    | 0, _ | _ + 1, 0 | _ + 1, _ + 1 => simp [redactLoop, utf8Text, spell]
  | n + 1, c :: text, hlen, hkept, hreadable, rounds, 0, _ =>
    ⟨[], nofun, by simp [redactLoop_zero]⟩
  | n + 1, c :: text, hlen, hkept, hreadable, rounds + 1, room + 1, hroom => by
    obtain ⟨b, bs, hbytes, _, hcont⟩ := utf8_eq_cons c
    have hcons : utf8Text (c :: text) = b :: (bs ++ utf8Text text) := by
      show utf8 c ++ utf8Text text = _
      rw [hbytes]
      rfl
    rw [hcons]
    cases hfind : patterns.find? (·.isPrefixOf (b :: (bs ++ utf8Text text))) with
    | some pattern =>
      -- the pattern is readable, so it ends between two characters
      have hmem := List.mem_of_find?_eq_some hfind
      have hpre : pattern <+: utf8Text (c :: text) := by
        have hfound := List.find?_some hfind
        rw [hcons]
        exact List.isPrefixOf_iff_prefix.mp hfound
      obtain ⟨ps, rfl⟩ := hreadable pattern hmem hpre.isInfix
      obtain ⟨rest, hrest⟩ := hpre
      obtain ⟨ds, hsplit, rfl⟩ := prefix_of_utf8Text hrest.symm
      have hps : ps ≠ [] := fun h => hne _ hmem (by rw [h]; rfl)
      have hshort : ds.length ≤ n := by
        have := congrArg List.length hsplit
        have hpos := List.length_pos_iff.mpr hps
        simp only [List.length_cons, length_append] at this hlen
        omega
      have hmarker := markerIn_length (room + 1)
      obtain ⟨items, hitems, hloop⟩ := redactLoop_text hne n ds hshort
        (fun d hd => hkept d (by rw [hsplit]; exact List.mem_append_right _ hd))
        (fun p hp hin => hreadable p hp (by
          rw [← hrest]
          exact hin.trans (List.suffix_append _ _).isInfix))
        rounds (room + 1 - (markerIn (room + 1)).length) (by omega)
      refine ⟨markerText ++ items, ?_, ?_⟩
      · intro x hx
        rcases mem_append.mp hx with hx | hx
        · exact markerText_kept x hx
        · exact hitems x hx
      · rw [redactLoop_some hfind, ← hcons, ← hrest, List.drop_left, hloop, spell_append,
          markerText, spell_map, List.take_append, length_map, redacted_length, hmarker,
          markerIn, List.map_take]
        congr 2
        omega
    | none =>
      have hsuffix : utf8Text text <:+ utf8Text (c :: text) := ⟨utf8 c, rfl⟩
      obtain ⟨items, hitems, hloop⟩ := redactLoop_text hne n text
        (Nat.le_of_succ_le_succ hlen) (fun d hd => hkept d (mem_cons_of_mem _ hd))
        (fun p hp hin => hreadable p hp (hin.trans hsuffix.isInfix))
        (rounds - bs.length) (room - bs.length) (by omega)
      refine ⟨(c, .copied) :: items, ?_, ?_⟩
      · intro x hx
        rcases mem_cons.mp hx with rfl | hx
        · exact hkept c mem_cons_self
        · exact hitems x hx
      · have hcopy : redactLoop patterns rounds room (bs ++ utf8Text text) =
            (bs.map (·, .copied)).take room ++
              redactLoop patterns (rounds - bs.length) (room - bs.length) (utf8Text text) := by
          refine redactLoop_copy (fun x b' y hsplit => ?_) (Nat.le_of_succ_le_succ hroom)
          refine find?_inside hne hreadable (hcont b' (by simp [hsplit])) ?_
          refine ⟨b :: x, ?_⟩
          rw [hcons, hsplit]
          simp
        rw [redactLoop_none hfind, hcopy, hloop, spell_cons, hbytes, List.map_cons,
          List.cons_append, List.take_succ_cons, List.take_append, length_map]

/-! ## From the redacted bytes to the message -/

theorem utf8_length_le (c : Char) : (utf8 c).length ≤ 4 := by
  unfold utf8
  dsimp only
  split
  · simp
  · split
    · simp
    · split <;> simp

/-- Cutting the bytes of a text leaves whole characters and a part of the next one. -/
theorem take_spell (items : List (Char × Origin)) (room : Nat) :
    ∃ whole part, whole <+: items ∧ (spell items).take room = spell whole ++ part ∧
      ((part = [] ∧ whole = items) ∨ room < (spell whole).length + 4) := by
  induction items generalizing room with
  | nil => exact ⟨[], [], nil_prefix, by simp [spell], .inl ⟨rfl, rfl⟩⟩
  | cons x items ih =>
    by_cases hfits : (utf8 x.1).length ≤ room
    · obtain ⟨whole, part, hpre, htake, hend⟩ := ih (room - (utf8 x.1).length)
      refine ⟨x :: whole, part, List.cons_prefix_cons.mpr ⟨rfl, hpre⟩, ?_, ?_⟩
      · rw [spell_cons, spell_cons, List.take_append, length_map, htake,
          List.take_of_length_le (by rw [length_map]; exact hfits), List.append_assoc]
      · rcases hend with ⟨hpart, rfl⟩ | hend
        · exact .inl ⟨hpart, rfl⟩
        · right
          rw [spell_cons, length_append, length_map]
          omega
    · have hle := utf8_length_le x.1
      refine ⟨[], (spell (x :: items)).take room, nil_prefix, rfl, .inr ?_⟩
      omega

theorem Kept.ne_escape {c : Char} (h : Kept c) : c ≠ escape := by
  rintro rfl
  rcases h with h | h
  · exact absurd h (by decide)
  · exact absurd h (by decide)

theorem cleanLoop_kept (h : ∀ x ∈ items, Kept x.1) (rounds : Nat) (more : List (Char × Origin)) :
    cleanLoop (items.length + rounds) (items ++ more) = items ++ cleanLoop rounds more := by
  induction items with
  | nil =>
    rw [List.length_nil, Nat.zero_add]
    rfl
  | cons x items ih =>
    have hx := h x mem_cons_self
    have hrounds : (x :: items).length + rounds = (items.length + rounds) + 1 := by
      rw [List.length_cons]
      omega
    have hstep : cleanLoop ((items.length + rounds) + 1) (x :: (items ++ more)) =
        x :: cleanLoop (items.length + rounds) (items ++ more) := by
      rw [cleanLoop.eq_def]
      dsimp only
      rw [if_neg hx.ne_escape]
      exact if_pos hx
    rw [hrounds, List.cons_append, hstep, ih fun y hy => h y (mem_cons_of_mem _ hy)]
    rfl

theorem cleanText_kept (h : ∀ x ∈ items, Kept x.1) (more : List (Char × Origin)) :
    ∃ cleaned, cleanText (items ++ more) = items ++ cleaned ∧ (more = [] → cleaned = []) := by
  refine ⟨cleanLoop more.length more, ?_, ?_⟩
  · rw [cleanText, length_append, cleanLoop_kept h]
  · rintro rfl
    rfl

theorem takeBytes_spec {text : List (Char × Origin)} :
    takeBytes room text <+: text ∧ (spell (takeBytes room text)).length ≤ room := by
  induction text generalizing room with
  | nil => exact ⟨ nil_prefix, Nat.zero_le _⟩
  | cons x text ih =>
    unfold takeBytes
    split
    next hfits =>
      obtain ⟨hpre, hlen⟩ := @ih (room - (utf8 x.1).length)
      refine ⟨List.cons_prefix_cons.mpr ⟨rfl, hpre⟩, ?_⟩
      rw [spell_cons, length_append, length_map]
      omega
    · exact ⟨ nil_prefix, Nat.zero_le _⟩

theorem truncateUtf8_spec (text : List (Char × Origin)) (maxBytes : Nat) :
    (truncateUtf8 text maxBytes).1 <+: text ∧
      (spell (truncateUtf8 text maxBytes).1).length ≤ maxBytes := by
  unfold truncateUtf8
  split
  next h => exact ⟨List.prefix_refl _, h⟩
  · exact takeBytes_spec

theorem spell_prefix_of {x y : List (Char × Origin)} (h : x <+: y) : spell x <+: spell y := by
  obtain ⟨z, rfl⟩ := h
  rw [spell_append]
  exact List.prefix_append _ _

theorem message_prefix_of (h : ∀ x ∈ items, Kept x.1) :
    spell (truncateUtf8 (cleanText (unspell ((spell items).take maxRedactedBytes))) maxMessage).1
      <+: (spell items).take maxRedactedBytes := by
  obtain ⟨whole, part, hwhole, htake, hend⟩ := take_spell items maxRedactedBytes
  rw [htake]
  obtain ⟨more, hdecoded, hmore⟩ := unspell_spell_append whole part
  have hkept : ∀ x ∈ whole, Kept x.1 := fun x hx => h x (hwhole.subset hx)
  obtain ⟨cleaned, hcleaned, hnil⟩ := cleanText_kept hkept more
  rw [hdecoded, hcleaned]
  obtain ⟨hpre, hlen⟩ := truncateUtf8_spec (whole ++ cleaned) maxMessage
  -- the cut for the message comes long before the cut of the redacted bytes
  have hinside : (truncateUtf8 (whole ++ cleaned) maxMessage).1 <+: whole := by
    rcases hend with ⟨hpart, _⟩ | hroom
    · rw [hnil (hmore hpart), append_nil] at hpre ⊢
      exact hpre
    · rcases List.prefix_or_prefix_of_prefix hpre (List.prefix_append whole cleaned) with h | h
      · exact h
      · have := (spell_prefix_of h).length_le
        unfold maxRedactedBytes at hroom
        unfold maxMessage at hlen this
        omega
  exact (spell_prefix_of hinside).trans (List.prefix_append _ _)

/-! ## The patterns -/

theorem mem_insertPattern {p : Bytes} : x ∈ insertPattern p ps ↔ x = p ∨ x ∈ ps := by
  induction ps with
  | nil => simp [insertPattern]
  | cons q ps ih =>
    unfold insertPattern
    split
    · exact mem_cons
    · rw [mem_cons, ih, mem_cons]
      exact ⟨fun h => h.elim (fun h => .inr (.inl h)) (fun h => h.elim .inl fun h => .inr (.inr h)),
        fun h => h.elim (fun h => .inr (.inl h)) (fun h => h.elim .inl fun h => .inr (.inr h))⟩

theorem mem_sortPatterns : x ∈ ps.foldr insertPattern [] ↔ x ∈ ps := by
  induction ps with
  | nil => exact Iff.rfl
  | cons p ps ih => rw [List.foldr_cons, mem_insertPattern, ih, mem_cons]

theorem mem_dedup {x : Bytes} : ∀ {ps : List Bytes}, x ∈ dedup ps ↔ x ∈ ps
  | [] => Iff.rfl
  | [_] => Iff.rfl
  | p :: q :: ps => by
    unfold dedup
    split
    next h =>
      rw [mem_dedup, h, List.mem_cons, List.mem_cons]
      simp
    · rw [List.mem_cons, mem_dedup, List.mem_cons (a := x) (b := p)]

/-- What must not be seen of a secret: the whole of it, and each of its lines. -/
def SecretText (secrets : List Bytes) (x : Bytes) : Prop :=
  x ≠ [] ∧ ∃ secret ∈ secrets, x = secret ∨ x ∈ secretLines secret

theorem mem_secretPatterns {secret : Bytes} :
    x ∈ secretPatterns secret ↔ x ≠ [] ∧ (x = secret ∨ x ∈ secretLines secret) := by
  unfold secretPatterns
  by_cases hsecret : secret = []
  · subst hsecret
    rw [if_pos rfl, show secretLines [] = [[]] from rfl, mem_singleton]
    exact ⟨nofun, fun h => absurd (h.2.elim id id) h.1⟩
  · rw [if_neg hsecret, mem_append, List.mem_filter, mem_singleton]
    by_cases hself : x = secret
    · simp [hself, hsecret]
    · simp [hself, and_comm]

variable {secrets : List Bytes}

/-- The patterns are the secrets and their lines, the empty ones left out. -/
theorem mem_normalizePatterns : x ∈ normalizePatterns secrets ↔ SecretText secrets x := by
  rw [normalizePatterns, mem_dedup, mem_sortPatterns, List.mem_flatMap]
  constructor
  · rintro ⟨secret, hsecret, hx⟩
    obtain ⟨hne, hx⟩ := mem_secretPatterns.mp hx
    exact ⟨hne, secret, hsecret, hx⟩
  · rintro ⟨hne, secret, hsecret, hx⟩
    exact ⟨secret, hsecret, mem_secretPatterns.mpr ⟨hne, hx⟩⟩

/-! ## The framer -/

/-- An event shows `x` in a place that belongs to no replacement marker. -/
def LogEvent.Shows (event : LogEvent) (x : Bytes) : Prop :=
  ∃ before run after, spell event.text = before ++ (run ++ after) ∧
    run.map Prod.fst = x ∧ ∀ y ∈ run, y.2 = .copied

/-- The condition on a line: its message is UTF-8 without control characters other than tab,
and each known secret in it is UTF-8. For a line too long to be shown: the text that is
shown instead contains no known secret. -/
def Plain (readTime : Bytes → Option String) (secrets : List Bytes) (line : LineState) : Prop :=
  if line.oversized then ∀ x, SecretText secrets x → ¬x <:+: utf8Text omitted
  else ∃ text, messageOf readTime line.bytes = utf8Text text ∧ (∀ c ∈ text, Kept c) ∧
    ∀ x, SecretText secrets x → x <:+: messageOf readTime line.bytes → ∃ ps, x = utf8Text ps

variable {readTime : Bytes → Option String} {stream : LogStreamKind}

section Events

variable {now : String}
  {x : Bytes}

theorem formatLine_oversized (patterns : List Bytes) (raw : Bytes) :
    (formatLine readTime patterns now stream raw true).text = omitted.map (·, .copied) := by
  have hkept : ∀ y ∈ omitted.map (fun c => (c, Origin.copied)), Kept y.1 := by
    intro y hy
    obtain ⟨c, hc, rfl⟩ := mem_map.mp hy
    have hall : omitted.all (fun c => !isControl c) = true := by decide
    exact .inr (by simpa using List.all_eq_true.mp hall c hc)
  obtain ⟨more, hdecoded, hmore⟩ := unspell_spell_append (omitted.map (·, Origin.copied)) []
  obtain ⟨cleaned, hcleaned, hnil⟩ := cleanText_kept hkept []
  rw [hmore rfl, append_nil, append_nil] at hdecoded
  rw [hnil rfl, append_nil] at hcleaned
  have hlen : (spell (omitted.map (·, Origin.copied))).length ≤ maxMessage := by
    rw [spell_map, length_map]
    decide
  show (truncateUtf8 (cleanText (unspell ((utf8Text omitted).map (·, .copied)))) maxMessage).1 = _
  rw [← spell_map, hdecoded, hcleaned, truncateUtf8, if_pos hlen]

theorem formatLine_clear {line : LineState} (hplain : Plain readTime secrets line)
    (hx : SecretText secrets x) :
    ¬(formatLine readTime (normalizePatterns secrets) now stream line.input line.oversized).Shows
      x := by
  rintro ⟨before, run, after, hspell, hrun, hcopied⟩
  unfold Plain at hplain
  cases hover : line.oversized with
  | true =>
    rw [hover] at hplain hspell
    rw [formatLine_oversized, spell_map] at hspell
    refine hplain x hx ⟨before.map Prod.fst, after.map Prod.fst, ?_⟩
    have := congrArg (List.map Prod.fst) hspell
    rw [map_fst_pair, List.map_append, List.map_append, hrun] at this
    rw [this, List.append_assoc]
  | false =>
    rw [hover] at hplain hspell
    obtain ⟨text, hmessage, hkept, hreadable⟩ := hplain
    have hinput : line.input = line.bytes := by rw [LineState.input, hover]; rfl
    rw [hmessage] at hreadable
    obtain ⟨items, hitems, hloop⟩ := redactLoop_text
      (fun p hp => (mem_normalizePatterns.mp hp).1) text.length text (Nat.le_refl _) hkept
      (fun p hp hin => hreadable p (mem_normalizePatterns.mp hp) hin)
      maxRedactedBytes maxRedactedBytes (Nat.le_refl _)
    have hpre : before ++ (run ++ after) <+:
        redactLoop (normalizePatterns secrets) maxRedactedBytes maxRedactedBytes
          (utf8Text text) := by
      have := message_prefix_of hitems
      rw [← hloop] at this
      rw [← hspell, hinput]
      show spell (truncateUtf8 (cleanText (unspell (redactOnce (messageOf readTime line.bytes)
        (normalizePatterns secrets) maxRedactedBytes))) maxMessage).1 <+: _
      rw [hmessage]
      exact this
    obtain ⟨rest, hrest⟩ := hpre
    have hne : run ≠ [] := by
      rintro rfl
      exact hx.1 hrun.symm
    have hsplit : redactLoop (normalizePatterns secrets) maxRedactedBytes maxRedactedBytes
        (utf8Text text) = before ++ (run ++ (after ++ rest)) := by
      rw [← hrest]
      simp
    have hclear := redactLoop_clear hsplit hcopied hne
    rw [hrun] at hclear
    exact hclear (mem_normalizePatterns.mpr hx)

end Events

/-- The framer and the events it has emitted. -/
structure LogStream where
  framer : LogFramer
  emitted : List LogEvent

/-- What happens to it: bytes arrive on a stream, or the streams end. -/
inductive LogAction where
  | push (stream : LogStreamKind) (chunk : Bytes) (now : Nat → String)
  | finish (now : Nat → String)

/-- No byte has arrived yet. -/
def LogStream.start : LogStream := ⟨⟨.empty, .empty⟩, []⟩

def LogStream.step (readTime : Bytes → Option String) (secrets : List Bytes) (s : LogStream) :
    LogAction → LogStream
  | .push stream chunk now =>
    let (framer, events) := s.framer.push readTime (normalizePatterns secrets) stream chunk now
    ⟨framer, s.emitted ++ events⟩
  | .finish now =>
    let (framer, events) := s.framer.finish readTime (normalizePatterns secrets) now
    ⟨framer, s.emitted ++ events⟩

/-- The lines an action completes. -/
def LogStream.completed (s : LogStream) : LogAction → List LineState
  | .push .stdout chunk _ => (feedAll s.framer.stdout chunk).2
  | .push .stderr chunk _ => (feedAll s.framer.stderr chunk).2
  | .push .unknown _ _ => []
  | .finish _ => s.framer.stdout.unfinished ++ s.framer.stderr.unfinished

/-- Every line the action completes is plain. -/
def PlainStep (readTime : Bytes → Option String) (secrets : List Bytes) (s : LogStream)
    (a : LogAction) : Prop :=
  ∀ line ∈ s.completed a, Plain readTime secrets line

/-- No emitted event shows a secret, except over a marker. -/
def LogStream.Clear (secrets : List Bytes) (s : LogStream) : Prop :=
  ∀ event ∈ s.emitted, ∀ x, SecretText secrets x → ¬event.Shows x

section Run

theorem formatLines_clear {now : Nat → String} {lines : List LineState}
    (hplain : ∀ line ∈ lines, Plain readTime secrets line) :
    ∀ event ∈ formatLines readTime (normalizePatterns secrets) now stream lines,
      ∀ x, SecretText secrets x → ¬event.Shows x := by
  intro event hevent x hx
  obtain ⟨i, hi, rfl⟩ := List.mem_mapIdx.mp hevent
  exact formatLine_clear (hplain _ (List.getElem_mem hi)) hx

/-- A step keeps the stream clear of secrets. -/
theorem LogStream.Clear.step {s : LogStream} {a : LogAction} (hs : s.Clear secrets)
    (ha : PlainStep readTime secrets s a) : (s.step readTime secrets a).Clear secrets := by
  have happend : ∀ events : List LogEvent,
      (∀ event ∈ events, ∀ x, SecretText secrets x → ¬event.Shows x) →
      ∀ event ∈ s.emitted ++ events, ∀ x, SecretText secrets x → ¬event.Shows x := by
    intro events hevents event hevent
    rcases mem_append.mp hevent with h | h
    · exact hs event h
    · exact hevents event h
  match a with
  | .push .stdout .. | .push .stderr .. => exact happend _ (formatLines_clear ha)
  | .push .unknown _ _ => exact happend [] fun event h => nomatch h
  | .finish now =>
    refine happend _ fun event hevent => ?_
    rcases mem_append.mp hevent with h | h
    · exact formatLines_clear (fun line hl => ha line (List.mem_append_left _ hl)) event h
    · exact formatLines_clear (fun line hl => ha line (List.mem_append_right _ hl)) event h

end Run

/-- In every run of the framer whose completed lines are all plain, no emitted message shows
a known secret or a line of one, except over a replacement marker. -/
theorem no_secret_disclosed (readTime : Bytes → Option String) (secrets : List Bytes)
    (actions : List LogAction)
    (h : Along (LogStream.step readTime secrets) (PlainStep readTime secrets) .start actions) :
    (play (LogStream.step readTime secrets) .start actions).Clear secrets := by
  have hstart : LogStream.start.Clear secrets := fun event he => nomatch he
  exact h.invariant (fun s a ha hs => hs.step ha) hstart

/-! ## A secret put back together -/

/-- A run over one chunk of stdout, in which nothing is a timestamp. -/
def logRun (secret chunk : String) : LogStream :=
  play (LogStream.step (fun _ => none) [utf8Text secret.toList]) .start
    [.push .stdout (utf8Text chunk.toList) fun _ => "now"]

/-- The secret `abc`, written with a NUL in it, is no occurrence of the secret; the NUL is
removed after redaction. -/
theorem secret_reassembled :
    (logRun "abc" "a\x00bc\n").emitted.map LogEvent.message = ["abc"] := by
  decide +kernel

/-- Written as it is, it is replaced. -/
theorem secret_replaced :
    (logRun "abc" "xabc\n").emitted.map LogEvent.message = ["x[REDACTED]"] ∧
      (logRun "abc" "xabc\n").Clear [utf8Text "abc".toList] := by
  refine ⟨by decide +kernel, no_secret_disclosed _ _ _ ⟨?_, trivial⟩⟩
  intro line hline
  have hlines : (feedAll .empty (utf8Text "xabc\n".toList)).2 =
      [⟨utf8Text "xabc".toList, false⟩] := by decide +kernel
  rw [LogStream.completed, LogStream.start] at hline
  rw [hlines] at hline
  obtain rfl := mem_singleton.mp hline
  refine ⟨"xabc".toList, by decide +kernel, ?_, ?_⟩
  · have hall : "xabc".toList.all (fun c => !isControl c) = true := by decide
    exact fun c hc => .inr (by simpa using List.all_eq_true.mp hall c hc)
  · rintro x ⟨_, secret, hsecret, hx⟩ -
    obtain rfl := mem_singleton.mp hsecret
    have hself : secretLines (utf8Text "abc".toList) = [utf8Text "abc".toList] := by
      decide +kernel
    rw [hself, mem_singleton] at hx
    exact ⟨_, hx.elim id id⟩

end SoloDock.Docker.Logs
