import SoloDock.Docker.Logs

/-!
# Environment files

`app_store/config_revision.rs`: an environment file has one line for each entry, with the value in
single quotes and a backslash before each quote and backslash in it. What `normalize_environment`
of `domain/validation.rs` accepts has no line feed, so a line holds an entry and the file is read
back as it was written.
-/

namespace SoloDock.Store

open Lib.Text
open Docker.Logs (isControl)

structure PublicEnvInput where
  key : String
  value : String
deriving DecidableEq, Repr

/-! ## What is accepted -/

def validateEnvKey (value : String) : Bool :=
  !(value.toList.isEmpty || value.utf8ByteSize > 128
    || !value.toList.head?.any (fun c => c.isAlpha || c = '_')
    || !value.toList.all fun c => c.isAlphanum || c = '_')

def validateText (value : String) : Bool := !value.toList.any isControl

def validateEnvValue (value : String) : Bool := !value.toList.any fun c => c = '\n' || c = '\r'

/-- The key and the value pass their checks. -/
def PublicEnvInput.accepted (entry : PublicEnvInput) : Bool :=
  validateEnvKey entry.key && validateText entry.value && validateEnvValue entry.value

/-! ## The file -/

/-- `str::replace` of a character. -/
def replace (c : Char) (by_ : List Char) (text : List Char) : List Char :=
  text.flatMap fun x => if x = c then by_ else [x]

/-- One round of the loop of `serialize_environment`. -/
def environmentLine (entry : PublicEnvInput) : List Char :=
  entry.key.toList ++ '=' :: '\'' ::
    (replace '\'' ['\\', '\''] (replace '\\' ['\\', '\\'] entry.value.toList) ++ ['\''])

def serializeEnvironment (entries : List PublicEnvInput) : List Char :=
  entries.flatMap fun entry => environmentLine entry ++ ['\n']

/-- A line without the carriage return before its end. -/
def chomp (line : List Char) : List Char :=
  if line.getLast? = some '\r' then line.dropLast else line

/-- `str::lines`: what follows the last line feed is a line unless it is empty. -/
def linesOf : List Char → List (List Char) → List (List Char)
  | last, [] => if last = [] then [] else [last]
  | line, next :: rest => chomp line :: linesOf next rest

def lines (text : List Char) : List (List Char) := linesOf (split '\n' text).1 (split '\n' text).2

/-- The loop of `read_environment` over the characters of a value. -/
def unescape : (escaped : Bool) → List Char → Option (List Char)
  | escaped, [] => if escaped then none else some []
  | true, c :: rest => if c = '\\' ∨ c = '\'' then (unescape false rest).map (c :: ·) else none
  | false, c :: rest => if c = '\\' then unescape true rest else (unescape false rest).map (c :: ·)

/-- One line: the key up to the first `=`, and a quoted value. -/
def readLine (line : List Char) : Option PublicEnvInput :=
  match line.dropWhile (· ≠ '=') with
  | '=' :: '\'' :: quoted =>
    if quoted.getLast? = some '\'' then
      (unescape false quoted.dropLast).map fun value =>
        ⟨String.ofList (line.takeWhile (· ≠ '=')), String.ofList value⟩
    else none
  | _ => none

/-- `read_environment` of a text; none is `StoreError::ContentInvalid`. -/
def readEnvironment (contents : List Char) (expected : List String) :
    Option (List PublicEnvInput) := do
  let result ← (lines contents).mapM readLine
  if result.map (·.key) ≠ expected then none else some result

/-! ## Reading back -/

theorem unescape_replace (value : List Char) :
    unescape false (replace '\'' ['\\', '\''] (replace '\\' ['\\', '\\'] value)) = some value := by
  induction value with
  | nil => rfl
  | cons c value ih =>
    unfold replace at ih ⊢
    by_cases hslash : c = '\\'
    · simp [hslash, unescape, ih]
    · by_cases hquote : c = '\''
      · simp [hquote, unescape, ih]
      · simp [hslash, hquote, unescape, ih]

theorem mem_of_mem_replace {c x : Char} {by_ text : List Char} (h : x ∈ replace c by_ text)
    (hx : x ∉ by_) : x ∈ text := by
  obtain ⟨y, hy, hmem⟩ := List.mem_flatMap.mp h
  split at hmem
  · exact absurd hmem hx
  · rwa [List.mem_singleton.mp hmem]

variable {entry : PublicEnvInput}

theorem PublicEnvInput.notMem_of_accepted (h : entry.accepted = true) :
    '=' ∉ entry.key.toList ∧ '\n' ∉ entry.key.toList ∧ '\n' ∉ entry.value.toList := by
  unfold accepted at h
  simp only [Bool.and_eq_true, validateEnvKey, validateEnvValue, Bool.not_eq_true',
    Bool.or_eq_false_iff,
    Bool.not_eq_false', List.all_eq_true, List.any_eq_false] at h
  obtain ⟨⟨⟨_, hkey⟩, -⟩, hvalue⟩ := h
  exact ⟨fun hmem => absurd (hkey _ hmem) (by decide), fun hmem => absurd (hkey _ hmem) (by decide),
    fun hmem => absurd rfl (hvalue _ hmem)⟩

theorem readLine_environmentLine (h : '=' ∉ entry.key.toList) :
    readLine (environmentLine entry) = some entry := by
  have hkey : ∀ c ∈ entry.key.toList, decide (c ≠ '=') = true :=
    fun c hc => decide_eq_true fun heq => h (heq ▸ hc)
  unfold readLine environmentLine
  rw [List.dropWhile_append_of_pos hkey, List.takeWhile_append_of_pos hkey]
  simp [unescape_replace]

theorem lines_append {line : List Char} (h : '\n' ∉ line) (rest : List Char) :
    lines (line ++ '\n' :: rest) = chomp line :: lines rest := by
  unfold lines
  rw [split_append h]
  rfl

theorem chomp_environmentLine (entry : PublicEnvInput) :
    chomp (environmentLine entry) = environmentLine entry := by
  refine if_neg ?_
  rw [environmentLine, ← List.cons_append, ← List.cons_append, ← List.append_assoc,
    List.getLast?_concat]
  decide

theorem notMem_environmentLine (hkey : '\n' ∉ entry.key.toList)
    (hvalue : '\n' ∉ entry.value.toList) : '\n' ∉ environmentLine entry := by
  simp only [environmentLine, List.mem_append, List.mem_cons, not_or]
  exact ⟨hkey, by decide, by decide, fun hmem => hvalue (mem_of_mem_replace
    (mem_of_mem_replace hmem (by decide)) (by decide)), by decide⟩

/-- Accepted entries read back line by line. -/
theorem readLines_serialize {entries : List PublicEnvInput}
    (h : ∀ entry ∈ entries, entry.accepted) :
    (lines (serializeEnvironment entries)).mapM readLine = some entries := by
  induction entries with
  | nil => rfl
  | cons entry entries ih =>
    obtain ⟨hentry, hrest⟩ := List.forall_mem_cons.mp h
    obtain ⟨hequals, hkey, hvalue⟩ := PublicEnvInput.notMem_of_accepted hentry
    have hcons : serializeEnvironment (entry :: entries) =
        environmentLine entry ++ '\n' :: serializeEnvironment entries := by
      simp [serializeEnvironment]
    rw [hcons, lines_append (notMem_environmentLine hkey hvalue), chomp_environmentLine]
    simp [readLine_environmentLine hequals, ih hrest]

/-- What was written is read back, so no two lists of entries are written alike. -/
theorem environment_read_back (entries : List PublicEnvInput)
    (h : ∀ entry ∈ entries, entry.accepted) :
    readEnvironment (serializeEnvironment entries) (entries.map (·.key)) = some entries ∧
    ∀ others : List PublicEnvInput, (∀ entry ∈ others, entry.accepted) →
      serializeEnvironment entries = serializeEnvironment others → entries = others := by
  refine ⟨?_, fun others hothers heq => ?_⟩
  · refine Option.bind_eq_some_iff.mpr ⟨entries, readLines_serialize h, if_neg (not_not_intro rfl)⟩
  · have hread := readLines_serialize h
    rw [heq, readLines_serialize hothers] at hread
    exact (Option.some.inj hread).symm

theorem quoted_entry_read_back :
    readEnvironment (serializeEnvironment [⟨"A", "it's \\"⟩]) ["A"] = some [⟨"A", "it's \\"⟩] :=
  (environment_read_back [⟨"A", "it's \\"⟩] (by decide)).1

end SoloDock.Store
