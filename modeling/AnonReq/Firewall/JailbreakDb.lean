import Mathlib.Algebra.Order.Field.Rat
import Mathlib.Data.List.Infix
import AnonReq.Foundation.Json
import AnonReq.Foundation.Runs

/-!
# The jailbreak database

`firewall/jailbreak_db.py`: patterns are loaded from a policy file, or are the built-in ones. A load
that fails leaves the compiled patterns; a reload first declares the database unloaded, and the next
match of a database that is not loaded takes the built-in patterns.

* `load_cases`: what a load does. `active_load_of_not_loads`, `active_reload_of_not_loads`: what is
  matched after a load and after a reload that fail.
* `active_exec`, `loaded_exec`: what is active, and that the database is loaded, after a run.
* `keepsDatabase_iff`: a run keeps its database exactly if no reload fails in it once a policy file
  has been loaded. `not_keepsDatabase`: a reload of a malformed file.
-/

namespace AnonReq.Firewall

/-! ### Patterns -/

/-- A float of Python. -/
inductive PyFloat where
  | finite (q : ℚ)
  | infinite (negative : Bool)
  | nan
deriving DecidableEq

/-- `a < b`. -/
def PyFloat.lt : PyFloat → PyFloat → Bool
  | .finite a, .finite b => a < b
  | .finite _, .infinite negative => !negative
  | .infinite negative, .finite _ => negative
  | .infinite negative, .infinite negative' => negative && !negative'
  | _, _ => false

/-- A pattern as `_validate_pattern` returns it. -/
structure JailbreakPattern where
  patternId : Text
  technique : Text
  regex : Option Text
  keywords : List Text
  confidence : PyFloat

/-- `DEFAULT_JAILBREAK_PATTERNS`. -/
def defaultJailbreakPatterns : List JailbreakPattern :=
  [{ patternId := "JB-001".toList
     technique := "role_bypass".toList
     regex := some
      "(?i)\\b(do\\s+anything\\s+now|dan\\s+mode|developer\\s+mode)\\b".toList
     keywords := ["ignore".toList, "policy".toList]
     confidence := .finite (19 / 20) },
   { patternId := "JB-002".toList
     technique := "safety_bypass".toList
     regex := some
      ("(?i)\\b(bypass|disable|circumvent)\\b.\x7b0,80\x7d" ++
        "\\b(safety|guardrail|policy|filter)\\b").toList
     keywords := []
     confidence := .finite (23 / 25) },
   { patternId := "JB-003".toList
     technique := "hypothetical_override".toList
     regex := some
      ("(?i)\\b(in\\s+a\\s+hypothetical|fictional\\s+scenario)\\b.\x7b0,80\x7d" ++
        "\\b(ignore|bypass)\\b").toList
     keywords := []
     confidence := .finite (22 / 25) }]

/-- The parts of Python that the database rests on. The built-in patterns compile. -/
structure Library where
  /-- `re.compile(pattern)`, by whether the pattern is found in a text. -/
  compile : Text → Option (Text → Bool)
  /-- `float(value)`, `none` where it raises. -/
  float : Json → Option PyFloat
  /-- `str(value)`. -/
  str : Json → Text
  unicode : Unicode
  compiles : ∀ item ∈ defaultJailbreakPatterns, ∀ regex ∈ item.regex, (compile regex).isSome = true

variable (L : Library)

/-- What a load raises. -/
inductive LoadError where
  | unreadable
  | valueError (message : String)
  | float
  | regex

/-- A list of texts. -/
def textItems : Json → Option (List Text)
  | .list items => items.mapM fun
    | .text s => some s
    | _ => none
  | _ => none

/-- `_validate_pattern(item)`. -/
def validatePattern (item : Json) : Except LoadError JailbreakPattern :=
  match item with
  | .object _ =>
    match item.get "pattern_id".toList with
    | some (.text (c :: patternId)) =>
      match L.float ((item.get "confidence".toList).getD (.float "0.85".toList)) with
      | none => .error .float
      | some confidence =>
        if confidence.lt (.finite 0) || PyFloat.lt (.finite 1) confidence then
          .error (.valueError "jailbreak pattern confidence must be between 0 and 1")
        else
          let valid (regex : Option Text) : Except LoadError JailbreakPattern :=
            match textItems ((item.get "keywords".toList).getD (.list [])) with
            | none => .error (.valueError "jailbreak pattern keywords must be strings")
            | some keywords => .ok
              { patternId := c :: patternId
                technique := L.str ((item.get "technique".toList).getD (.text "jailbreak".toList))
                regex := regex
                keywords := keywords
                confidence := confidence }
          match (item.get "regex".toList).getD .null with
          | .null => valid none
          | .text regex => valid (some regex)
          | _ => .error (.valueError "jailbreak pattern regex must be a string")
    | _ => .error (.valueError "jailbreak pattern requires pattern_id")
  | _ => .error (.valueError "jailbreak pattern must be an object")

/-- `_CompiledPattern`. -/
structure CompiledPattern where
  source : JailbreakPattern
  regex : Option (Text → Bool)
  keywords : List Text

/-- `_compile_pattern(item)`: an empty regular expression counts as none. -/
def compilePattern (item : JailbreakPattern) : Except LoadError CompiledPattern :=
  let keywords := item.keywords.map L.unicode.foldText
  match item.regex with
  | none | some [] => .ok { source := item, regex := none, keywords := keywords }
  | some pattern =>
    match L.compile pattern with
    | none => .error .regex
    | some regex => .ok { source := item, regex := some regex, keywords := keywords }

/-! ### The database -/

/-- The policy file. -/
inductive PolicyFile where
  | missing
  | malformed
  | document (raw : Json)

/-- `JailbreakDB`. -/
structure JailbreakDB where
  patterns : List JailbreakPattern
  compiled : List CompiledPattern
  loaded : Bool

/-- One match. -/
structure Match where
  patternId : Text
  confidence : PyFloat
  technique : Text
deriving DecidableEq

namespace JailbreakDB

/-- A new database. -/
def create : JailbreakDB where
  patterns := []
  compiled := []
  loaded := false

/-- The patterns of a file. -/
def readPatterns : PolicyFile → Except LoadError (List JailbreakPattern)
  | .missing => .ok defaultJailbreakPatterns
  | .malformed => .error .unreadable
  | .document raw =>
    let patterns :=
      match raw with
      | .object fields => ((Json.object fields).get "patterns".toList).getD (.list [])
      | raw => raw
    match patterns with
    | .list items => items.mapM (validatePattern L)
    | _ => .error (.valueError "jailbreak DB must contain a list of patterns")

/-- The end of a load: the patterns of the database are compiled. -/
def compileAll (s : JailbreakDB) : Except LoadError Unit × JailbreakDB :=
  match s.patterns.mapM (compilePattern L) with
  | .error e => (.error e, s)
  | .ok compiled => (.ok (), { s with compiled := compiled, loaded := true })

/-- `load()`. -/
def load (s : JailbreakDB) (file : PolicyFile) : Except LoadError Unit × JailbreakDB :=
  match readPatterns L file with
  | .error e => (.error e, s)
  | .ok patterns => compileAll L { s with patterns := patterns }

/-- `reload()`. -/
def reload (s : JailbreakDB) (file : PolicyFile) : Except LoadError Unit × JailbreakDB :=
  load L { s with loaded := false } file

/-- The match of one pattern. -/
def matchOne (text : Text) (compiled : CompiledPattern) : Option Match :=
  let normalized := L.unicode.foldText text
  let regexHit := compiled.regex.any fun search => search text
  let keywordHit := !compiled.keywords.isEmpty &&
    compiled.keywords.all fun k => decide (k <:+: normalized)
  if !regexHit && !keywordHit then none
  else some
    { patternId := compiled.source.patternId
      confidence := compiled.source.confidence
      technique := compiled.source.technique }

/-- What the compiled patterns match in a text, the most confident first. -/
def matches_ (s : JailbreakDB) (text : Text) : List Match :=
  (s.compiled.filterMap (matchOne L text)).mergeSort fun a b => !a.confidence.lt b.confidence

/-- `match(text)`. -/
def match_ (s : JailbreakDB) (text : Text) : Except LoadError (List Match) × JailbreakDB :=
  if s.loaded then (.ok (s.matches_ L text), s)
  else
    let repaired := compileAll L { s with patterns := defaultJailbreakPatterns }
    (repaired.1.map fun _ => repaired.2.matches_ L text, repaired.2)

/-! ### Runs -/

/-- One call, with the file as it is then. -/
inductive Call where
  | load (file : PolicyFile)
  | reload (file : PolicyFile)
  | match_ (text : Text)

/-- The database after a call, whether or not it raises. -/
def step (s : JailbreakDB) : Call → JailbreakDB
  | .load file => (s.load L file).2
  | .reload file => (s.reload L file).2
  | .match_ text => (s.match_ L text).2

/-- The file is missing, or is a list of valid patterns that compile. -/
def Loads (file : PolicyFile) : Prop :=
  ∃ patterns compiled, readPatterns L file = .ok patterns ∧
    patterns.mapM (compilePattern L) = .ok compiled

/-- The call loads a file. -/
def Call.Succeeds : Call → Prop
  | .load file | .reload file => Loads L file
  | .match_ _ => False

/-- The call loads a policy file that is there. -/
def Call.LoadsPolicy : Call → Prop
  | .load (.document raw) | .reload (.document raw) => Loads L (.document raw)
  | _ => False

/-- A run keeps its database: after a reload that raises, and as long as no other load succeeds,
every match returns what it returned before; and once a policy file has been loaded, no match takes
the built-in patterns itself. -/
structure KeepsDatabase (calls : List Call) : Prop where
  answers : ∀ before file between after, calls = before ++ .reload file :: between ++ after →
    (∃ e, ((Runs.exec (step L) create before).reload L file).1 = .error e) →
    (∀ call ∈ between, ¬ call.Succeeds L) → ∀ text,
      ((Runs.exec (step L) create (before ++ .reload file :: between)).match_ L text).1 =
        ((Runs.exec (step L) create before).match_ L text).1
  loaded : ∀ before, before <+: calls → (∃ call ∈ before, call.LoadsPolicy L) →
    (Runs.exec (step L) create before).loaded = true

/-! ### What is matched -/

/-- The built-in patterns, compiled. -/
def builtin : List CompiledPattern :=
  match defaultJailbreakPatterns.mapM (compilePattern L) with
  | .ok compiled => compiled
  | .error _ => []

/-- The patterns that the next match uses. -/
def active (s : JailbreakDB) : List CompiledPattern := if s.loaded then s.compiled else builtin L

variable {L}

theorem mapM_defaultJailbreakPatterns :
    defaultJailbreakPatterns.mapM (compilePattern L) = .ok (builtin L) := by
  have hcompiles : ∀ item ∈ defaultJailbreakPatterns,
      ∃ compiled, compilePattern L item = .ok compiled := by
    intro item hitem
    rw [compilePattern]
    split
    · exact ⟨_, rfl⟩
    · exact ⟨_, rfl⟩
    next pattern _ hregex =>
      obtain ⟨search, hsearch⟩ := Option.isSome_iff_exists.mp (L.compiles item hitem pattern hregex)
      rw [hsearch]
      exact ⟨_, rfl⟩
  obtain ⟨compiled, hcompiled⟩ := Runs.exists_mapM hcompiles
  rw [builtin, hcompiled]

/-- A match finds what the active patterns match, and leaves them active. -/
theorem match_eq (s : JailbreakDB) (text : Text) :
    (s.match_ L text).1 = .ok (({ s with compiled := active L s }).matches_ L text) ∧
      active L (s.match_ L text).2 = active L s ∧ (s.match_ L text).2.loaded = true := by
  rw [match_, active]
  cases hloaded : s.loaded with
  | true => exact ⟨rfl, if_pos hloaded, hloaded⟩
  | false =>
    simp only [compileAll, mapM_defaultJailbreakPatterns]
    exact ⟨rfl, rfl, rfl⟩

/-- What a match finds depends on the active patterns only. -/
theorem match_congr {s s' : JailbreakDB} (h : active L s = active L s') (text : Text) :
    (s.match_ L text).1 = (s'.match_ L text).1 := by
  rw [(match_eq s text).1, (match_eq s' text).1, h]
  rfl

/-- **What a load does**: a file that loads replaces the database; any other leaves what is
compiled. -/
theorem load_cases (s : JailbreakDB) (file : PolicyFile) :
    (∃ patterns compiled, readPatterns L file = .ok patterns ∧
        patterns.mapM (compilePattern L) = .ok compiled ∧
        s.load L file = (.ok (), { patterns := patterns, compiled := compiled, loaded := true })) ∨
      ¬ Loads L file ∧ ∃ e patterns,
        s.load L file = (.error e, { s with patterns := patterns }) := by
  rw [load]
  cases hread : readPatterns L file with
  | error e =>
    refine Or.inr ⟨?_, e, s.patterns, rfl⟩
    rintro ⟨patterns, compiled, hpatterns, -⟩
    exact absurd (hread.symm.trans hpatterns) (by simp)
  | ok patterns =>
    simp only [compileAll]
    cases hcompile : patterns.mapM (compilePattern L) with
    | error e =>
      refine Or.inr ⟨?_, e, patterns, rfl⟩
      rintro ⟨patterns', compiled, hpatterns, hcompiled⟩
      obtain rfl := Except.ok.inj (hread.symm.trans hpatterns)
      exact absurd (hcompile.symm.trans hcompiled) (by simp)
    | ok compiled => exact Or.inl ⟨patterns, compiled, rfl, hcompile, rfl⟩

theorem load_of_loads (s : JailbreakDB) {file : PolicyFile} (h : Loads L file) :
    (s.load L file).2.loaded = true := by
  obtain ⟨patterns, compiled, -, -, hload⟩ | ⟨hnot, -⟩ := load_cases s file
  · rw [hload]
  · exact absurd h hnot

/-- A load of the built-in patterns, for want of a file. -/
theorem active_load_missing (s : JailbreakDB) : active L (s.load L .missing).2 = builtin L := by
  simp only [load, readPatterns, compileAll, mapM_defaultJailbreakPatterns]
  rfl

/-- A load that fails leaves the active patterns. -/
theorem active_load_of_not_loads (s : JailbreakDB) {file : PolicyFile} (h : ¬ Loads L file) :
    active L (s.load L file).2 = active L s ∧ (s.load L file).2.loaded = s.loaded := by
  obtain ⟨patterns, compiled, hpatterns, hcompiled, -⟩ | ⟨-, e, patterns, hload⟩ :=
    load_cases s file
  · exact absurd ⟨patterns, compiled, hpatterns, hcompiled⟩ h
  · rw [hload]
    exact ⟨rfl, rfl⟩

/-- A reload that fails makes the built-in patterns active. -/
theorem active_reload_of_not_loads (s : JailbreakDB) {file : PolicyFile} (h : ¬ Loads L file) :
    active L (s.reload L file).2 = builtin L ∧ (s.reload L file).2.loaded = false := by
  obtain ⟨hactive, hloaded⟩ := active_load_of_not_loads { s with loaded := false } h
  exact ⟨hactive, hloaded⟩

theorem not_loads_of_reload {s : JailbreakDB} {file : PolicyFile} {e : LoadError}
    (h : (s.reload L file).1 = .error e) : ¬ Loads L file := by
  rintro ⟨patterns, compiled, hpatterns, hcompiled⟩
  obtain ⟨_, _, -, -, hload⟩ | ⟨hnot, -⟩ := load_cases (L := L) { s with loaded := false } file
  · rw [reload, hload] at h
    exact absurd h (by simp)
  · exact hnot ⟨patterns, compiled, hpatterns, hcompiled⟩

/-! ### Runs -/

/-- A file that loads and is no policy file is missing. -/
theorem eq_missing_of_loads {file : PolicyFile} (hloads : Loads L file)
    (hpolicy : ∀ raw, file ≠ .document raw) : file = .missing := by
  cases file with
  | missing => rfl
  | malformed =>
    obtain ⟨patterns, -, hread, -⟩ := hloads
    exact absurd hread (by simp [readPatterns])
  | document raw => exact absurd rfl (hpolicy raw)

/-- Where the built-in patterns are active, a call that loads no policy file leaves them active. -/
theorem active_step {s : JailbreakDB} (h : active L s = builtin L) {call : Call}
    (hcall : ¬ call.LoadsPolicy L) : active L (step L s call) = builtin L := by
  cases call with
  | match_ text => exact ((match_eq s text).2.1).trans h
  | load file =>
    by_cases hloads : Loads L file
    · obtain rfl := eq_missing_of_loads hloads (by rintro raw rfl; exact hcall hloads)
      exact active_load_missing s
    · exact (active_load_of_not_loads s hloads).1.trans h
  | reload file =>
    by_cases hloads : Loads L file
    · obtain rfl := eq_missing_of_loads hloads (by rintro raw rfl; exact hcall hloads)
      exact active_load_missing _
    · exact (active_reload_of_not_loads s hloads).1

theorem Call.Succeeds.of_loadsPolicy {call : Call} (h : call.LoadsPolicy L) : call.Succeeds L := by
  cases call with
  | load file => cases file with
    | document raw => exact h
    | _ => exact h.elim
  | reload file => cases file with
    | document raw => exact h
    | _ => exact h.elim
  | match_ text => exact h.elim

theorem active_exec {s : JailbreakDB} (h : active L s = builtin L) {calls : List Call}
    (hcalls : ∀ call ∈ calls, ¬ call.LoadsPolicy L) :
    active L (Runs.exec (step L) s calls) = builtin L := by
  have hsteps : Runs.Along (step L) (fun _ call => ¬ call.LoadsPolicy L) s calls :=
    Runs.along_of_forall fun _ call hmem => hcalls call hmem
  exact hsteps.exec_of_step (I := fun s => active L s = builtin L)
    (fun _ _ h hcall => active_step h hcall) h

/-- A loaded database stays loaded if no reload fails. -/
theorem loaded_step {s : JailbreakDB} {call : Call} (h : s.loaded = true ∨ call.LoadsPolicy L)
    (hreload : ∀ file, call = .reload file → Loads L file) : (step L s call).loaded = true := by
  cases call with
  | match_ text => exact (match_eq s text).2.2
  | load file =>
    by_cases hloads : Loads L file
    · exact load_of_loads s hloads
    · refine (active_load_of_not_loads s hloads).2.trans (h.resolve_right fun hpolicy => ?_)
      exact hloads (Call.Succeeds.of_loadsPolicy hpolicy)
  | reload file => exact load_of_loads _ (hreload file rfl)

/-- In a run without a failed reload of a policy file that has been loaded, the database stays
loaded from then on. -/
theorem loaded_exec {calls : List Call}
    (h : ∀ before file after, calls = before ++ .reload file :: after →
      (∃ call ∈ before, call.LoadsPolicy L) → Loads L file)
    (hpolicy : ∃ call ∈ calls, call.LoadsPolicy L) :
    (Runs.exec (step L) create calls).loaded = true := by
  induction calls using List.reverseRecOn with
  | nil =>
    obtain ⟨call, hmem, -⟩ := hpolicy
    exact absurd hmem List.not_mem_nil
  | append_singleton before call ih =>
    have hstep : Runs.exec (step L) create (before ++ [call]) =
        step L (Runs.exec (step L) create before) call := by
      rw [Runs.exec, List.foldl_append]
      rfl
    have hbefore : ∀ front file back, before = front ++ .reload file :: back →
        (∃ call ∈ front, call.LoadsPolicy L) → Loads L file := by
      rintro front file back rfl
      exact h front file (back ++ [call]) (by simp)
    have hearlier : (∃ call ∈ before, call.LoadsPolicy L) ∨ call.LoadsPolicy L := by
      obtain ⟨other, hmem, hother⟩ := hpolicy
      obtain hmem | hmem := List.mem_append.mp hmem
      · exact Or.inl ⟨other, hmem, hother⟩
      · exact Or.inr (List.mem_singleton.mp hmem ▸ hother)
    rw [hstep]
    refine loaded_step (hearlier.imp_left (ih hbefore)) ?_
    rintro file rfl
    obtain hearlier | hcall := hearlier
    · exact h before file [] rfl hearlier
    · exact Call.Succeeds.of_loadsPolicy hcall

variable (L)

/-- **A run keeps its database** exactly if no reload fails in it once a policy file has been
loaded. -/
theorem keepsDatabase_iff (calls : List Call) :
    KeepsDatabase L calls ↔ ∀ before file after, calls = before ++ .reload file :: after →
      (∃ call ∈ before, call.LoadsPolicy L) → Loads L file := by
  constructor
  · rintro ⟨-, hloaded⟩ before file after rfl hpolicy
    by_contra hnot
    have hprefix : before ++ [.reload file] <+: before ++ .reload file :: after :=
      ⟨after, by simp⟩
    obtain ⟨call, hmem, hcall⟩ := hpolicy
    have hafter := hloaded _ hprefix ⟨call, List.mem_append_left _ hmem, hcall⟩
    rw [Runs.exec, List.foldl_append] at hafter
    exact absurd ((active_reload_of_not_loads _ hnot).2.symm.trans hafter) (by simp)
  · intro h
    constructor
    · rintro before file between after rfl ⟨e, he⟩ hbetween text
      have hnot := not_loads_of_reload he
      have hbuiltin : active L create = builtin L := rfl
      have hbefore : ∀ call ∈ before, ¬ call.LoadsPolicy L := fun call hmem hcall =>
        hnot (h before file (between ++ after) (by simp) ⟨call, hmem, hcall⟩)
      -- no policy file has been loaded, so the built-in patterns are active before and after
      refine match_congr ((active_exec hbuiltin ?_).trans (active_exec hbuiltin hbefore).symm) text
      intro call hmem hcall
      obtain hmem | rfl | hmem : call ∈ before ∨ call = .reload file ∨ call ∈ between := by
        simpa using hmem
      · exact hbefore call hmem hcall
      · exact hnot (Call.Succeeds.of_loadsPolicy hcall)
      · exact hbetween call hmem (Call.Succeeds.of_loadsPolicy hcall)
    · rintro before ⟨rest, rfl⟩ hpolicy
      refine loaded_exec ?_ hpolicy
      rintro front file back rfl
      exact h front file (back ++ rest) (by simp)

end JailbreakDB

/-- A library for a text in which no regular expression of the built-in patterns is found. -/
def plainLibrary : Library where
  compile := fun _ => some fun _ => false
  float
    | .float shown => if shown = "0.85".toList then some (.finite (17 / 20)) else none
    | .int n => some (.finite n)
    | _ => none
  str
    | .text s => s
    | _ => []
  unicode := .ascii
  compiles := fun _ _ _ _ => rfl

/-- A policy file with one pattern. -/
def phraseFile : PolicyFile :=
  .document (.object [("patterns".toList, .list [.object [
    ("pattern_id".toList, .text "JB-LOCAL".toList),
    ("keywords".toList, .list [.text "pass phrase".toList])]])])

/-- **A reload of a malformed file** takes the policy away. -/
theorem not_keepsDatabase :
    ((Runs.exec (JailbreakDB.step plainLibrary) .create [.load phraseFile]).match_ plainLibrary
        "pass phrase".toList).1.toOption.map List.length = some 1 ∧
    ((Runs.exec (JailbreakDB.step plainLibrary) .create
        [.load phraseFile, .reload .malformed]).match_ plainLibrary
          "pass phrase".toList).1.toOption.map List.length = some 0 ∧
    ¬ ∀ (L : Library) (calls : List JailbreakDB.Call), JailbreakDB.KeepsDatabase L calls := by
  refine ⟨by decide +kernel, by decide +kernel, fun h => ?_⟩
  have hloads : JailbreakDB.Loads plainLibrary phraseFile := by
    by_contra hnot
    have hfailed := (JailbreakDB.active_load_of_not_loads JailbreakDB.create hnot).2
    exact absurd hfailed (by decide +kernel)
  have hloaded := (h plainLibrary [.load phraseFile, .reload .malformed]).loaded _
    (List.prefix_refl _) ⟨.load phraseFile, List.mem_cons_self, hloads⟩
  exact absurd hloaded (by decide +kernel)

end AnonReq.Firewall
