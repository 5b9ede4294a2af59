import RingScan.Plan.Report
import RingScan.Proofs.Plan.Agreement
import RingScan.Proofs.Ring.Reading

/-!
# Splits given by their bounds

A report is asked for by a command line that gives the two bounds of a split as texts.  A bound is
taken from the command line whatever it is, so that a negative number is no option and the empty
text is no missing value, and it is read as the token that it spells.  So the texts of the bounds of
a split stand for the split.

## Main definitions

* `Plan.Arguments.words`: a command line for given arguments.

## Main statements

* `Plan.Arguments.parse_words`: the arguments of a command line are those it was made for.
* `Plan.tokens_read_exactly`: which texts stand for which tokens, and for which splits.
-/

namespace RingScan

namespace Plan

namespace Arguments

/-- The command line for arguments: the bounds stand in words of their own, the other values in one
word with the name of their option. -/
def words (arguments : Arguments) : List String :=
  ["--config=" ++ arguments.config, "--metadata=" ++ arguments.metadata,
    "--start", arguments.start, "--end", arguments.stop] ++
  arguments.replicas.map ("--replica=" ++ ·)

variable {slot : Slot} {name front value word : String} {rest : List String} {draft next : Draft}

/-! ### Words of a command line -/

/-- What follows the name of an option and an equals sign is a value, whatever it is. -/
theorem ofChars_joined (hslot : Slot.ofName? name = some slot) (hname : '=' ∉ name.toList)
    (hfront : front.toList = '-' :: '-' :: (name.toList ++ ['='])) :
    Word.ofChars (front ++ value).toList = .option slot (some value) := by
  have hsplit : splitName (name.toList ++ '=' :: value.toList) = (name, some value) := by
    rw [splitName, Text.dropWhile_bne_append hname, Text.takeWhile_bne_append hname]
    simp only [String.ofList_toList]
  obtain ⟨c, cs, hcs⟩ : ∃ c cs, name.toList ++ '=' :: value.toList = c :: cs :=
    List.exists_cons_of_ne_nil (by simp)
  rw [String.toList_append, hfront, List.cons_append, List.cons_append, List.append_assoc,
    List.singleton_append]
  rw [hcs] at hsplit ⊢
  simp only [Word.ofChars, hsplit, hslot]

theorem parseFrom_joined (hword : Word.ofChars word.toList = .option slot (some value))
    (hset : draft.set slot value = .ok next) :
    parseFrom draft none (word :: rest) = parseFrom next none rest := by
  rw [parseFrom, hword]
  simp only [hset]

/-- A bound is taken whatever it looks like. -/
theorem parseFrom_bound (hword : Word.ofChars word.toList = .option slot none)
    (hslot : slot.takesAnything = true) (hset : draft.set slot value = .ok next) :
    parseFrom draft none (word :: value :: rest) = parseFrom next none rest := by
  rw [parseFrom, hword]
  simp only [parseFrom, hslot, Bool.true_or, if_true, hset]

theorem parseFrom_replicas (draft : Draft) (replicas : List String) :
    parseFrom draft none (replicas.map ("--replica=" ++ ·)) =
      { draft with replicas := draft.replicas ++ replicas }.finish := by
  induction replicas generalizing draft with
  | nil => simp [parseFrom]
  | cons replica replicas ih =>
    have hword : Word.ofChars ("--replica=" ++ replica).toList =
        .option .replica (some replica) :=
      ofChars_joined (rfl : Slot.ofName? "replica" = _) (by decide) rfl
    rw [List.map_cons, parseFrom_joined hword rfl, ih]
    simp

/-- The arguments of a command line are those that it was made for, if the two files have names. -/
theorem parse_words {arguments : Arguments} (hconfig : arguments.config ≠ "")
    (hmetadata : arguments.metadata ≠ "") : parse arguments.words = .ok arguments := by
  have hconfigWord : Word.ofChars ("--config=" ++ arguments.config).toList =
      .option .config (some arguments.config) :=
    ofChars_joined (rfl : Slot.ofName? "config" = _) (by decide) rfl
  have hmetadataWord : Word.ofChars ("--metadata=" ++ arguments.metadata).toList =
      .option .metadata (some arguments.metadata) :=
    ofChars_joined (rfl : Slot.ofName? "metadata" = _) (by decide) rfl
  obtain ⟨config, metadata, start, stop, replicas⟩ := arguments
  have hconfigSet : ({} : Draft).set .config config = .ok { config := some config } := by
    rw [Draft.set, String.isEmpty_eq_false_iff.2 hconfig]
    rfl
  have hmetadataSet : ({ config := some config } : Draft).set .metadata metadata =
      .ok { config := some config, metadata := some metadata } := by
    rw [Draft.set, String.isEmpty_eq_false_iff.2 hmetadata]
    rfl
  rw [parse, words, List.cons_append, parseFrom_joined hconfigWord hconfigSet, List.cons_append,
    parseFrom_joined hmetadataWord hmetadataSet, List.cons_append, List.cons_append,
    parseFrom_bound (by decide : Word.ofChars "--start".toList = .option .start none) rfl rfl,
    List.cons_append, List.cons_append,
    parseFrom_bound (by decide : Word.ofChars "--end".toList = .option .stop none) rfl rfl,
    List.nil_append, parseFrom_replicas]
  rfl

end Arguments

/-! ### Bounds -/

/-- **Texts of tokens are read exactly.**  A partitioner accepts the texts that spell a token
without the blanks around them, for the token that they spell, and refuses every other text as a
fault of the configuration; bytes are spelled by an even number of hexadecimal digits.  The text of
a token that the partitioner gives to keys is read as this token, so a command line with the texts
of the bounds of a split asks for the report about this split. -/
theorem tokens_read_exactly (partitioner : Partitioner) :
    (∀ text token, partitioner.readToken text = .ok token ↔
      partitioner.Spells (Text.trimChars text.toList) token) ∧
    (∀ text, (∃ fault : ConfigurationFault, partitioner.readToken text = .error fault) ↔
      ¬ ∃ token, partitioner.Spells (Text.trimChars text.toList) token) ∧
    (∀ cs, (∃ token, Partitioner.byteOrdered.Spells cs token) ↔
      2 ∣ cs.length ∧ ∀ c ∈ cs, c ∈ "0123456789abcdefABCDEF".toList) ∧
    (∀ token, partitioner.Produces token → partitioner.readToken token.text = .ok token) ∧
    ∀ (split : Split) (config metadata : String) (job : Job) (table : Table) (keys : KeyLayout),
      partitioner.Produces split.start → partitioner.Produces split.stop →
      config ≠ "" → metadata ≠ "" →
      Partitioner.ofIdentifier job.partitioner = .ok partitioner → table.keys = .ok keys →
      ∃ arguments subject,
        Arguments.parse (Arguments.words
          ⟨config, metadata, split.start.text, split.stop.text, split.replicas⟩) = .ok arguments ∧
        subjectOf job table arguments = .ok subject ∧ subject.split = split ∧
        ∀ files pageSize, readJob files pageSize config = .ok job →
          readTable files metadata = .ok table →
            report files pageSize arguments = reportOn subject := by
  refine ⟨fun text token => Partitioner.readToken_eq_ok_iff, fun text => ?_, fun cs => ?_,
    fun token => Partitioner.readToken_text, ?_⟩
  · rw [Traversal.exists_error_iff]
    simp only [Partitioner.readToken_eq_ok_iff]
  · rw [Partitioner.exists_spells_byteOrdered_iff]
    simp only [Text.Hex.isDigit_iff_mem]
  · intro split config metadata job table keys hstart hstop hconfig hmetadata hpartitioner hkeys
    have hsubject : subjectOf job table
        ⟨config, metadata, split.start.text, split.stop.text, split.replicas⟩ = .ok _ :=
      subjectOf_eq_ok hpartitioner (Partitioner.readToken_text hstart)
        (Partitioner.readToken_text hstop) hkeys
    exact ⟨_, _, Arguments.parse_words hconfig hmetadata, hsubject, rfl,
      fun files pageSize => report_of_subjectOf hsubject⟩

/-- A number with a sign and leading zeros, a sign alone, and a split up to the smallest number with
a replica whose name looks like an option. -/
theorem tokens_read_exactly_smallest :
    let id : Column := { name := "id", type := .int }
    let table : Table := ⟨[id], [], [id]⟩
    let job : Job := { keyspace := "ks", table := "t" }
    let split : Split := ⟨.long 100, .long Int64.minValue, ["-1"]⟩
    Partitioner.hashed.readToken " +007\n" = .ok (.long 7) ∧
      (∃ fault, Partitioner.hashed.readToken "-" = .error fault) ∧
      Partitioner.hashed.readToken (Token.long Int64.minValue).text = .ok (.long Int64.minValue) ∧
      ∃ arguments subject,
        Arguments.parse (Arguments.words
          ⟨"job", "table", split.start.text, split.stop.text, ["-1"]⟩) = .ok arguments ∧
        subjectOf job table arguments = .ok subject ∧ subject.split = split := by
  intro id table job split
  obtain ⟨hread, hrefused, -, htext, hreport⟩ := tokens_read_exactly .hashed
  have hseven : Text.trimChars " +007\n".toList = ['+', '0', '0', '7'] := by decide
  have hsign : Text.trimChars "-".toList = ['-'] := by decide
  refine ⟨(hread _ _).2 ?_, (hrefused _).2 ?_, htext _ trivial, ?_⟩
  · have hnumeral : Text.IsNumeral ['0', '0', '7'] :=
      ⟨by decide, List.all_eq_true.1 (by decide)⟩
    have hvalue : Text.numeral ['0', '0', '7'] = 7 := by decide
    have hdenotes : Text.Denotes ['+', '0', '0', '7'] 7 :=
      Text.denotes_plus_iff.2 ⟨hnumeral, by rw [hvalue]; rfl⟩
    rw [hseven]
    exact .number hdenotes (by norm_num) (by norm_num)
  · rw [hsign]
    rintro ⟨_, hspells⟩
    cases hspells with
    | number h => exact (Text.denotes_minus_iff.1 h).1.1 rfl
  · obtain ⟨arguments, subject, hparse, hsubject, hsplit, -⟩ :=
      hreport split "job" "table" job table ⟨id, [], []⟩ trivial trivial (by decide) (by decide)
        (by decide) rfl
    exact ⟨arguments, subject, hparse, hsubject, hsplit⟩

end Plan

end RingScan
