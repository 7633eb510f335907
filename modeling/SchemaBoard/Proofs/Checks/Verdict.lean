import SchemaBoard.Checks.CommandLine
import SchemaBoard.Proofs.Checks.Stopping

set_option autoImplicit false

/-!
Command lines of the check runner. Main statement: whether a run stops at the first failure changes
nothing about its exit code, and a line of keys runs the steps that they name in the order of the
pipeline, or nothing if one of them is unknown.
-/
namespace SchemaBoard.Checks

/-- The steps that some keys name, each once and in the order of the pipeline; every step if there
are no keys. -/
structure AreNamed (keys : List Text) (steps : List Step) : Prop where
  named : ∀ step, step ∈ steps ↔ step ∈ pipeline ∧ (keys = [] ∨ step.key ∈ keys)
  ordered : steps.Sublist pipeline
  once : steps.Nodup

def Request.stopping (request : Request) : Request := { request with failFast := true }

section Selection

variable {steps : List Step} {keys others : List Text}

theorem isKnown_iff {key : Text} : isKnown steps key = true ↔ key ∈ steps.map Step.key := by
  simp [isKnown]

/-- A key that names no step is a failure. -/
theorem select_of_unknown (unknown : ∃ key ∈ keys, key ∉ steps.map Step.key) :
    ∃ strangers, select steps keys = .error strangers := by
  obtain ⟨key, member, strange⟩ := unknown
  have found : key ∈ keys.filter fun key => !isKnown steps key := by
    apply List.mem_filter.mpr
    refine ⟨member, ?_⟩
    rw [Bool.not_eq_true', Bool.eq_false_iff]
    exact fun known => strange (isKnown_iff.mp known)
  have some : (keys.filter fun key => !isKnown steps key).isEmpty = false := by
    rw [List.isEmpty_eq_false_iff]
    exact List.ne_nil_of_mem found
  refine ⟨keys.filter fun key => !isKnown steps key, ?_⟩
  simp [select, some]

/-- Known keys select the steps that they name. -/
theorem select_of_known (known : ∀ key ∈ keys, key ∈ steps.map Step.key) :
    select steps keys = .ok (steps.filter fun step => keys = [] ∨ step.key ∈ keys) := by
  have none : (keys.filter fun key => !isKnown steps key) = [] := by
    apply List.filter_eq_nil_iff.mpr
    intro key member
    rw [isKnown_iff.mpr (known key member)]
    simp
  cases keys with
  | nil => simp [select]
  | cons key rest => simp [select, none]

theorem select_congr (known : ∀ key ∈ keys, key ∈ steps.map Step.key)
    (same : ∀ key, key ∈ others ↔ key ∈ keys) : select steps others = select steps keys := by
  have alsoKnown : ∀ key ∈ others, key ∈ steps.map Step.key :=
    fun key member => known key ((same key).mp member)
  have empty : others = [] ↔ keys = [] := by
    rw [List.eq_nil_iff_forall_not_mem, List.eq_nil_iff_forall_not_mem]
    simp only [same]
  rw [select_of_known known, select_of_known alsoKnown]
  simp only [same, empty]

theorem areNamed_filter (keys : List Text) :
    AreNamed keys (pipeline.filter fun step => keys = [] ∨ step.key ∈ keys) where
  named := by simp
  ordered := List.filter_sublist
  once := by
    have distinct : pipeline.Nodup := by decide
    exact distinct.filter _

end Selection

section Requests

variable {keys : List Text}

/-- The exit code depends on the keys alone. -/
theorem code_run_stopping (execute : Step → Outcome) (request : Request) :
    (request.stopping.run execute).code = (request.run execute).code := by
  have steady := fun steps => exitCode_run (fun _ => execute) steps
  rw [Request.run, Request.run, Request.stopping]
  cases select pipeline request.keys with
  | error unknown => rfl
  | ok steps =>
    cases request.failFast with
    | false => exact steady steps
    | true => rfl

theorem run_of_unknown (execute : Step → Outcome)
    (unknown : ∃ key ∈ keys, key ∉ pipeline.map Step.key) :
    (Request.run execute { keys := keys }).code = 2 ∧
      (Request.run execute { keys := keys }).ran = [] := by
  obtain ⟨strangers, failed⟩ := select_of_unknown unknown
  simp [Request.run, failed]

theorem run_of_known (execute : Step → Outcome)
    (known : ∀ key ∈ keys, key ∈ pipeline.map Step.key) :
    AreNamed keys (Request.run execute { keys := keys }).ran ∧
      ((Request.run execute { keys := keys }).code = 0 ↔
        ∀ step ∈ (Request.run execute { keys := keys }).ran, (execute step).code = 0) := by
  have selected := select_of_known known
  simp only [Request.run, selected, map_step_run_full, exitCode_run_full]
  exact ⟨areNamed_filter keys, trivial⟩

end Requests

section Words

/-- A word that does not start with a minus sign is a key. -/
theorem classify_of_plain {word : Text} (plain : word.head? ≠ some '-') :
    classify word = .key word := by
  unfold classify
  split
  · exact absurd rfl plain
  · exact absurd rfl plain
  · exact absurd rfl plain
  · exact absurd rfl plain
  · rfl

theorem classifyAll_of_plain {words : List Text} (plain : ∀ word ∈ words, word.head? ≠ some '-') :
    classifyAll words = words.map Argument.key := by
  induction words with
  | nil => rfl
  | cons word rest ih =>
    have later := ih fun other member => plain other (List.mem_cons_of_mem word member)
    rw [classifyAll, classify_of_plain (plain word List.mem_cons_self), later]
    rfl

theorem readArguments_keys {run : KeyRun} (inPlace : run ≠ .behind) (request : Request)
    (keys : List Text) :
    readArguments run false request (keys.map Argument.key) =
      .ok { request with keys := request.keys ++ keys } := by
  induction keys generalizing run request with
  | nil => simp [readArguments]
  | cons key rest ih =>
    rw [List.map_cons, readArguments, if_neg inPlace, ih (by decide)]
    simp

/-- A line of keys is the request for them. -/
theorem ofWords_of_plain {words : List Text} (plain : ∀ word ∈ words, word.head? ≠ some '-') :
    Request.ofWords words = .ok { keys := words } := by
  have clear : (words.map Argument.key).contains .ambiguous = false := by
    simp
  rw [Request.ofWords, classifyAll_of_plain plain, clear]
  exact readArguments_keys (by decide) {} words

/-- A change of the request, or more arguments behind all others, sets the flag and does nothing
else, if that is so where the other arguments end. -/
theorem readArguments_append (mark : Request → Request) (more : List Argument)
    (atKey : ∀ request text, mark { request with keys := request.keys ++ [text] } =
      { mark request with keys := (mark request).keys ++ [text] })
    (atFlag : ∀ request, mark { request with failFast := true } =
      { mark request with failFast := true })
    (atEnd : ∀ run spoiled request, readArguments run spoiled (mark request) more =
      (readArguments run spoiled request []).map Request.stopping)
    (run : KeyRun) (spoiled : Bool) (request : Request) (arguments : List Argument) :
    readArguments run spoiled (mark request) (arguments ++ more) =
      (readArguments run spoiled request arguments).map Request.stopping := by
  induction arguments generalizing run spoiled request with
  | nil => exact atEnd run spoiled request
  | cons argument rest ih =>
    rw [List.cons_append]
    cases argument with
    | key text =>
      rw [readArguments, readArguments, ← atKey]
      split
      · exact ih run true request
      · exact ih .inside spoiled _
    | separator =>
      rw [readArguments, readArguments]
      split
      · exact ih run true request
      · exact ih .inside spoiled request
    | failFast =>
      rw [readArguments, readArguments, ← atFlag]
      exact ih run.atOption spoiled _
    | help => rfl
    | flagWithValue => rfl
    | unknown => exact ih run.atOption true request
    | ambiguous => rfl

/-- The same holds of whole lines, as the flag is never ambiguous. -/
theorem ofWords_eq_stopping {words others : List Text}
    (ambiguous : .ambiguous ∈ classifyAll words ↔ .ambiguous ∈ classifyAll others)
    (read : readArguments .before false {} (classifyAll words) =
      (readArguments .before false {} (classifyAll others)).map Request.stopping) :
    Request.ofWords words = (Request.ofWords others).map Request.stopping := by
  rw [Request.ofWords, Request.ofWords]
  simp only [List.contains_iff_mem, ambiguous]
  split
  · rfl
  · exact read

/-- The flag in front of a line. -/
theorem ofWords_failFast_cons (words : List Text) :
    Request.ofWords ("--fail-fast".toText :: words) =
      (Request.ofWords words).map Request.stopping := by
  have flag : classify "--fail-fast".toText = .failFast := by decide
  have line : classifyAll ("--fail-fast".toText :: words) = .failFast :: classifyAll words := by
    rw [classifyAll, flag]
  have atEnd : ∀ run spoiled request, readArguments run spoiled (Request.stopping request) [] =
      (readArguments run spoiled request []).map Request.stopping := by
    intro run spoiled request
    cases spoiled <;> rfl
  have read := readArguments_append Request.stopping [] (fun _ _ => rfl) (fun _ => rfl) atEnd
    .before false {} (classifyAll words)
  rw [List.append_nil] at read
  apply ofWords_eq_stopping
  · simp [line]
  · rw [line]
    exact read

theorem otherWord_ne_separator (word : Text) : otherWord word ≠ .separator := by
  rw [otherWord]
  split
  · nofun
  · nofun

theorem shortWord_ne_separator (rest : Text) : shortWord rest ≠ .separator := by
  unfold shortWord
  dsimp only
  split
  all_goals
    split
    · nofun
    · nofun

theorem longWord_ne_separator (word : Text) : longWord word ≠ .separator := by
  have known : ∀ option ∈ longOptions, option.2 ≠ .separator := by decide
  unfold longWord
  dsimp only
  split
  · exact otherWord_ne_separator word
  · next option found =>
    split
    · nofun
    · apply known option
      have member := found ▸ List.mem_singleton_self option
      split at member
      · exact List.mem_of_mem_filter member
      · exact List.mem_of_mem_filter member
  · nofun

/-- Nothing but two minus signs separates. -/
theorem eq_of_classify_separator {word : Text} (separator : classify word = .separator) :
    word = "--".toText := by
  unfold classify at separator
  split at separator
  · rfl
  · exact absurd separator (longWord_ne_separator _)
  · exact absurd separator (shortWord_ne_separator _)
  · exact absurd separator (otherWord_ne_separator _)
  · cases separator

theorem classifyAll_cons {word : Text} (plain : word ≠ "--".toText) (rest : List Text) :
    classifyAll (word :: rest) = classify word :: classifyAll rest := by
  rw [classifyAll]
  split
  · next separator => exact absurd (eq_of_classify_separator separator) plain
  · rfl

theorem classifyAll_append {words : List Text} (plain : "--".toText ∉ words) (rest : List Text) :
    classifyAll (words ++ rest) = classifyAll words ++ classifyAll rest := by
  induction words with
  | nil => rfl
  | cons word others ih =>
    rw [List.mem_cons, not_or] at plain
    rw [List.cons_append, classifyAll_cons (Ne.symm plain.1), classifyAll_cons (Ne.symm plain.1),
      ih plain.2, List.cons_append]

/-- The flag behind a line in which nothing separates. -/
theorem ofWords_append_failFast {words : List Text} (plain : "--".toText ∉ words) :
    Request.ofWords (words ++ ["--fail-fast".toText]) =
      (Request.ofWords words).map Request.stopping := by
  have flag : classifyAll ["--fail-fast".toText] = [.failFast] := by decide
  have line : classifyAll (words ++ ["--fail-fast".toText]) = classifyAll words ++ [.failFast] := by
    rw [classifyAll_append plain, flag]
  have atEnd : ∀ run spoiled request, readArguments run spoiled (id request) [.failFast] =
      (readArguments run spoiled request []).map Request.stopping := by
    intro run spoiled request
    cases spoiled <;> rfl
  apply ofWords_eq_stopping
  · simp [line]
  · rw [line]
    exact readArguments_append id [.failFast] (fun _ _ => rfl) (fun _ => rfl) atEnd .before false {}
      (classifyAll words)

theorem map_code_of_stopping {execute : Step → Outcome} {words others : List Text}
    (read : Request.ofWords words = (Request.ofWords others).map Request.stopping) :
    (reportOf execute words).map Report.code = (reportOf execute others).map Report.code := by
  rw [reportOf, reportOf, read]
  cases Request.ofWords others with
  | error stop => rfl
  | ok request => exact congrArg Except.ok (code_run_stopping execute request)

end Words

/-- Stopping at the first failure leaves the shortest beginning of the results that ends in a
failure, or all of them, and never changes the exit code. A line of keys runs nothing and ends with
the exit code 2 if one of them names no step. Else it runs exactly the steps that they name, in the
order of the pipeline and each once, however the keys are ordered and repeated. -/
theorem run_verdict :
    (∀ (execute : Nat → Step → Outcome) (steps : List Step),
      run execute false steps = steps.mapIdx (fun before step => resultOf (execute before) step) ∧
        StopsEarly (run execute false steps) (run execute true steps)) ∧
    (∀ (execute : Step → Outcome) (request : Request) (words : List Text),
      (request.stopping.run execute).code = (request.run execute).code ∧
        (reportOf execute ("--fail-fast".toText :: words)).map Report.code =
          (reportOf execute words).map Report.code ∧
        ("--".toText ∉ words →
          (reportOf execute (words ++ ["--fail-fast".toText])).map Report.code =
            (reportOf execute words).map Report.code)) ∧
    ∀ (execute : Step → Outcome) (keys : List Text), (∀ key ∈ keys, key.head? ≠ some '-') →
      ∃ report, reportOf execute keys = .ok report ∧
        ((∃ key ∈ keys, key ∉ pipeline.map Step.key) → report.code = 2 ∧ report.ran = []) ∧
        ((∀ key ∈ keys, key ∈ pipeline.map Step.key) →
          AreNamed keys report.ran ∧
            (report.code = 0 ↔ ∀ step ∈ report.ran, (execute step).code = 0) ∧
            ∀ others, (∀ key, key ∈ others ↔ key ∈ keys) →
              reportOf execute others = .ok report) := by
  refine ⟨?_, ?_, ?_⟩
  · intro execute steps
    exact ⟨run_full execute steps, stopsEarly_run execute steps⟩
  · intro execute request words
    refine ⟨code_run_stopping execute request, ?_, ?_⟩
    · exact map_code_of_stopping (ofWords_failFast_cons words)
    · intro plain
      exact map_code_of_stopping (ofWords_append_failFast plain)
  · intro execute keys plain
    have line : ∀ words : List Text, (∀ word ∈ words, word.head? ≠ some '-') →
        reportOf execute words = .ok (Request.run execute { keys := words }) := by
      intro words plain
      rw [reportOf, ofWords_of_plain plain]
      rfl
    refine ⟨Request.run execute { keys := keys }, line keys plain, run_of_unknown execute, ?_⟩
    intro known
    obtain ⟨named, code⟩ := run_of_known execute known
    refine ⟨named, code, ?_⟩
    intro others same
    rw [line others fun key member => plain key ((same key).mp member), Request.run, Request.run,
      select_congr known same]

/-- Keys in the wrong order and with a repetition, where the check of the format fails. -/
theorem run_verdict_repeated_keys :
    let keys := ["tests", "format", "tests"].map String.toText
    let execute : Step → Outcome := fun step =>
      { code := if step.key = "format".toText then 1 else 0 }
    (∀ key ∈ keys, key.head? ≠ some '-') ∧ (∀ key ∈ keys, key ∈ pipeline.map Step.key) ∧
      (∀ key, key ∈ ["format", "tests"].map String.toText ↔ key ∈ keys) ∧
      "--".toText ∉ keys ∧
      (∃ report, reportOf execute keys = .ok report ∧ AreNamed keys report.ran ∧ report.code ≠ 0 ∧
        reportOf execute (["format", "tests"].map String.toText) = .ok report) ∧
      (∃ report, reportOf execute ["tests".toText, "style".toText] = .ok report ∧
        report.code = 2 ∧ report.ran = []) ∧
      (reportOf execute (keys ++ ["--fail-fast".toText])).map Report.code =
        (reportOf execute keys).map Report.code := by
  intro keys execute
  have plain : ∀ key ∈ keys, key.head? ≠ some '-' := by decide
  have known : ∀ key ∈ keys, key ∈ pipeline.map Step.key := by decide
  have same : ∀ key, key ∈ ["format", "tests"].map String.toText ↔ key ∈ keys := by
    intro key
    simp only [keys, List.map_cons, List.map_nil, List.mem_cons, List.not_mem_nil, or_false]
    tauto
  have noSeparator : "--".toText ∉ keys := by decide
  obtain ⟨-, stopping, lines⟩ := run_verdict
  refine ⟨plain, known, same, noSeparator, ?_, ?_, ?_⟩
  · obtain ⟨report, read, -, answered⟩ := lines execute keys plain
    obtain ⟨named, code, others⟩ := answered known
    refine ⟨report, read, named, ?_, others _ same⟩
    intro zero
    have format : "format".toText ∈ pipeline.map Step.key := by decide
    obtain ⟨step, member, key⟩ := List.mem_map.mp format
    have ran : step ∈ report.ran := (named.named step).mpr ⟨member, Or.inr (by rw [key]; decide)⟩
    have passed := code.mp zero step ran
    simp only [execute, key, if_true] at passed
    cases passed
  · obtain ⟨report, read, refused, -⟩ :=
      lines execute ["tests".toText, "style".toText] (by decide)
    exact ⟨report, read, refused ⟨"style".toText, by simp, by decide⟩⟩
  · exact (stopping execute {} keys).2.2 noSeparator

end SchemaBoard.Checks
