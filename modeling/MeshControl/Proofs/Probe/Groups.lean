import Mathlib.Data.List.Forall2
import MeshControl.Probe.Options

/-! A command line as a row of groups. What a group says depends neither on the groups around it
nor on what the options were before, so a command line is read exactly if each of its groups can
be, and it comes to what they say one after the other.
-/

namespace MeshControl.Probe

open Text

-----------------------------------------------------------------------------------------
-- What groups say
-----------------------------------------------------------------------------------------

/-- What a group is about: one option, by either of its names, or the query. -/
inductive Kind
  | target
  | topology
  | timeout
  | sends
  | patient
  | verbose
  | query
  | other
deriving DecidableEq, Repr

/-- What a group is about, by its first word. -/
def Kind.ofWord : String → Kind
  | "--target" | "-t" => .target
  | "--machine" | "-m" => .topology
  | "--timeout" => .timeout
  | "--retries" => .sends
  | "--patient" => .patient
  | "--verbose" | "-v" => .verbose
  | "version" | "count" | "read" => .query
  | _ => .other

/-- How many words belong to a first word. -/
def operands : String → Nat
  | "--target" | "-t" | "--machine" | "-m" | "--timeout" | "--retries" => 1
  | "version" => 3
  | "count" => 2
  | "read" => 4
  | _ => 0

/-- What a group that can be read says. -/
inductive Setting
  | target (address : Net.Address)
  | topology (machine : Topology)
  | timeout (limit : UInt64)
  | sends (count : UInt32)
  | patient
  | verbose
  | query (question : Query)

namespace Setting

def kind : Setting → Kind
  | target _ => .target
  | topology _ => .topology
  | timeout _ => .timeout
  | sends _ => .sends
  | patient => .patient
  | verbose => .verbose
  | query _ => .query

/-- The options after a group. -/
def apply (options : Options) : Setting → Options
  | target address => { options with target := address }
  | topology machine => { options with topology := some machine }
  | timeout limit =>
      { options with
        config := { options.config with timeout := .ofMilliseconds limit.toNat } }
  | sends count => { options with config := { options.config with sends := count.toNat } }
  | patient => { options with config := .patient }
  | verbose => { options with verbose := true }
  | query question => { options with query := some question }

end Setting

/-- A first word and the words that belong to it say something, whatever the options are before
and whatever comes behind.
-/
structure Reads (first : String) (arguments : List String) (setting : Setting) : Prop where
  enough : arguments.length = operands first
  kind : setting.kind = .ofWord first
  group (options : Options) (rest : List String)
    : group options first (arguments ++ rest) = .ok (setting.apply options, operands first)

-----------------------------------------------------------------------------------------
-- Words
-----------------------------------------------------------------------------------------

section Words

variable {α β : Type} {words : List String} {place count : Nat} {what text : String}
  {read : String → Option α} {a : α}

theorem exists_of_bind_eq_ok {first : Except Refusal α} {later : α → Except Refusal β} {b : β}
    (done : first >>= later = .ok b)
    : ∃ a, first = .ok a ∧ later a = .ok b := by
  cases first with
  | error refusal => cases done
  | ok a => exact ⟨a, rfl, done⟩

theorem word_eq_ok_iff : word words place what = .ok text ↔ words[place]? = some text := by
  unfold word
  cases words[place]? <;> simp

theorem value_eq_ok_iff
    : value words place what read = .ok a
      ↔ ∃ text, words[place]? = some text ∧ read text = some a := by
  constructor
  · intro found
    obtain ⟨text, there, found⟩ := exists_of_bind_eq_ok found
    refine ⟨text, word_eq_ok_iff.mp there, ?_⟩
    cases value : read text with
    | none => simp [value, throw, throwThe, MonadExceptOf.throw] at found
    | some b => simpa [value, pure, Except.pure] using found
  · rintro ⟨text, there, value⟩
    simp [Probe.value, word_eq_ok_iff.mpr there, value, bind, Except.bind, pure, Except.pure]

theorem getElem?_take_append (there : words[place]? = some text) (within : place < count)
    (rest : List String)
    : (words.take count ++ rest)[place]? = some text := by
  have inside : place < words.length := (List.getElem?_eq_some_iff.mp there).1
  have kept : place < (words.take count).length := by
    rw [List.length_take]
    omega
  rw [List.getElem?_append_left kept, List.getElem?_take, if_pos within, there]

/-- A word that is there is there as well if other words come behind the group. -/
theorem word_take_append (found : word words place what = .ok text) (within : place < count)
    (rest : List String)
    : word (words.take count ++ rest) place what = .ok text :=
  word_eq_ok_iff.mpr (getElem?_take_append (word_eq_ok_iff.mp found) within rest)

theorem value_take_append (found : value words place what read = .ok a) (within : place < count)
    (rest : List String)
    : value (words.take count ++ rest) place what read = .ok a := by
  obtain ⟨text, there, good⟩ := value_eq_ok_iff.mp found
  exact value_eq_ok_iff.mpr ⟨text, getElem?_take_append there within rest, good⟩

theorem lt_length_of_word (found : word words place what = .ok text) : place < words.length :=
  (List.getElem?_eq_some_iff.mp (word_eq_ok_iff.mp found)).1

theorem lt_length_of_value (found : value words place what read = .ok a)
    : place < words.length := by
  obtain ⟨text, there, _⟩ := value_eq_ok_iff.mp found
  exact (List.getElem?_eq_some_iff.mp there).1

end Words

-----------------------------------------------------------------------------------------
-- Readers
-----------------------------------------------------------------------------------------

/-- A reader needs so many words, and does not look at what comes behind them. -/
def Local {α : Type} (count : Nat) (reader : List String → Except Refusal α) : Prop :=
  ∀ words a, reader words = .ok a
    → count ≤ words.length ∧ ∀ rest, reader (words.take count ++ rest) = .ok a

theorem local_value {α : Type} (what : String) (read : String → Option α)
    : Local 1 (value · 0 what read) :=
  fun _ _ found => ⟨lt_length_of_value found, value_take_append found Nat.zero_lt_one⟩

theorem local_machine : Local 1 (word · 0 "머신 크기" >>= machine) := by
  intro words size found
  obtain ⟨text, found, readable⟩ := exists_of_bind_eq_ok found
  refine ⟨lt_length_of_word found, fun rest => ?_⟩
  dsimp only
  rw [word_take_append found Nat.zero_lt_one]
  exact readable

theorem local_versionQuery : Local 3 versionQuery := by
  intro words query found
  obtain ⟨x, found_x, found⟩ := exists_of_bind_eq_ok found
  obtain ⟨y, found_y, found⟩ := exists_of_bind_eq_ok found
  obtain ⟨cpu, found_cpu, found⟩ := exists_of_bind_eq_ok found
  refine ⟨lt_length_of_value found_cpu, fun rest => ?_⟩
  simp only [versionQuery, value_take_append found_x (by decide : 0 < 3),
    value_take_append found_y (by decide : 1 < 3), value_take_append found_cpu (by decide : 2 < 3)]
  exact found

theorem local_countQuery : Local 2 countQuery := by
  intro words query found
  obtain ⟨name, found_name, found⟩ := exists_of_bind_eq_ok found
  obtain ⟨application, found_application, found⟩ := exists_of_bind_eq_ok found
  refine ⟨lt_length_of_word found_name, fun rest => ?_⟩
  simp only [countQuery, word_take_append found_name (by decide : 1 < 2),
    value_take_append found_application (by decide : 0 < 2)]
  exact found

theorem local_readQuery : Local 4 readQuery := by
  intro words query found
  obtain ⟨text, found_text, found⟩ := exists_of_bind_eq_ok found
  obtain ⟨x, found_x, found⟩ := exists_of_bind_eq_ok found
  obtain ⟨y, found_y, found⟩ := exists_of_bind_eq_ok found
  obtain ⟨start, found_start, found⟩ := exists_of_bind_eq_ok found
  obtain ⟨length, found_length, found⟩ := exists_of_bind_eq_ok found
  refine ⟨lt_length_of_value found_length, fun rest => ?_⟩
  simp only [readQuery, word_take_append found_text (by decide : 2 < 4),
    value_take_append found_x (by decide : 0 < 4), value_take_append found_y (by decide : 1 < 4),
    value_take_append found_length (by decide : 3 < 4), found_start, bind, Except.bind]
  exact found

-----------------------------------------------------------------------------------------
-- One group
-----------------------------------------------------------------------------------------

/-- What a first word says is what a reader makes of the words behind it. -/
def Takes {α : Type} (first : String) (reader : List String → Except Refusal α)
    (say : α → Setting) : Prop :=
  ∀ options words, group options first words
    = (do
        let a ← reader words
        return ((say a).apply options, operands first))

theorem takes_target : Takes "--target" (value · 0 "주소" Net.Address.ofText?) .target :=
  fun _ _ => rfl

theorem takes_target_short : Takes "-t" (value · 0 "주소" Net.Address.ofText?) .target :=
  fun _ _ => rfl

theorem takes_machine : Takes "--machine" (word · 0 "머신 크기" >>= machine) .topology :=
  fun _ _ => (bind_assoc _ _ _).symm

theorem takes_machine_short : Takes "-m" (word · 0 "머신 크기" >>= machine) .topology :=
  fun _ _ => (bind_assoc _ _ _).symm

theorem takes_timeout : Takes "--timeout" (value · 0 "숫자" long?) .timeout :=
  fun _ _ => rfl

theorem takes_retries : Takes "--retries" (value · 0 "숫자" word?) .sends :=
  fun _ _ => rfl

theorem takes_version : Takes "version" versionQuery .query :=
  fun _ _ => rfl

theorem takes_count : Takes "count" countQuery .query :=
  fun _ _ => rfl

theorem takes_read : Takes "read" readQuery .query :=
  fun _ _ => rfl

theorem Takes.reads {α : Type} {first : String} {reader : List String → Except Refusal α}
    {say : α → Setting} (takes : Takes first reader say) (here : Local (operands first) reader)
    {words : List String} {a : α} (found : reader words = .ok a)
    (kind : (say a).kind = .ofWord first)
    : Reads first (words.take (operands first)) (say a) := by
  obtain ⟨long, again⟩ := here words a found
  refine ⟨List.length_take_of_le long, kind, fun options rest => ?_⟩
  rw [takes, again]
  rfl

/-- An option with one value says what is read of the word behind it. -/
theorem Takes.apply_eq {α : Type} {first text what : String} {read : String → Option α}
    {say : α → Setting} (takes : Takes first (value · 0 what read) say) {setting : Setting}
    (reads : Reads first [text] setting)
    : ∃ a, read text = some a ∧ ∀ options, setting.apply options = (say a).apply options := by
  obtain ⟨a, found, _⟩ := exists_of_bind_eq_ok ((takes {} _).symm.trans (reads.group {} []))
  obtain ⟨_, there, readable⟩ := value_eq_ok_iff.mp found
  obtain rfl := Option.some.inj there
  refine ⟨a, readable, fun options => ?_⟩
  have grouped := reads.group options []
  rw [takes, found] at grouped
  exact (congrArg Prod.fst (Except.ok.inj grouped)).symm

/-- A group that can be read once is read in the same way wherever it stands. By the first word. -/
theorem exists_reads {options : Options} {first : String} {words : List String}
    {result : Options × Nat} (read : group options first words = .ok result)
    : ∃ setting, Reads first (words.take (operands first)) setting := by
  unfold group at read
  split at read
  case h_1 =>
    obtain ⟨address, found, _⟩ := exists_of_bind_eq_ok read
    exact ⟨.target address, takes_target.reads (local_value _ _) found rfl⟩
  case h_2 =>
    obtain ⟨address, found, _⟩ := exists_of_bind_eq_ok read
    exact ⟨.target address, takes_target_short.reads (local_value _ _) found rfl⟩
  case h_3 =>
    rw [← bind_assoc] at read
    obtain ⟨size, found, _⟩ := exists_of_bind_eq_ok read
    exact ⟨.topology size, takes_machine.reads local_machine found rfl⟩
  case h_4 =>
    rw [← bind_assoc] at read
    obtain ⟨size, found, _⟩ := exists_of_bind_eq_ok read
    exact ⟨.topology size, takes_machine_short.reads local_machine found rfl⟩
  case h_5 =>
    obtain ⟨limit, found, _⟩ := exists_of_bind_eq_ok read
    exact ⟨.timeout limit, takes_timeout.reads (local_value _ _) found rfl⟩
  case h_6 =>
    obtain ⟨count, found, _⟩ := exists_of_bind_eq_ok read
    exact ⟨.sends count, takes_retries.reads (local_value _ _) found rfl⟩
  case h_7 => exact ⟨.patient, rfl, rfl, fun _ _ => rfl⟩
  case h_8 | h_9 => exact ⟨.verbose, rfl, rfl, fun _ _ => rfl⟩
  case h_10 | h_11 => cases read
  case h_12 =>
    obtain ⟨question, found, _⟩ := exists_of_bind_eq_ok read
    exact ⟨.query question, takes_version.reads local_versionQuery found rfl⟩
  case h_13 =>
    obtain ⟨question, found, _⟩ := exists_of_bind_eq_ok read
    exact ⟨.query question, takes_count.reads local_countQuery found rfl⟩
  case h_14 =>
    obtain ⟨question, found, _⟩ := exists_of_bind_eq_ok read
    exact ⟨.query question, takes_read.reads local_readQuery found rfl⟩
  case h_15 => cases read

/-- What a group says is what it does to the options, and its arguments are what it uses up. -/
theorem Reads.group_eq {first : String} {words : List String} {setting : Setting}
    (reads : Reads first (words.take (operands first)) setting) (options : Options)
    : Probe.group options first words = .ok (setting.apply options, operands first) := by
  have read := reads.group options (words.drop (operands first))
  rwa [List.take_append_drop] at read

-----------------------------------------------------------------------------------------
-- Rows of groups
-----------------------------------------------------------------------------------------

/-- The groups of a command line, from the left. -/
def groups : List String → List (List String)
  | [] => []
  | first :: words =>
      (first :: words.take (operands first)) :: groups (words.drop (operands first))
termination_by words => words.length
decreasing_by
  simp only [List.length_drop, List.length_cons]
  omega

/-- What a group is about. -/
def kindOf (group : List String) : Kind :=
  Kind.ofWord (group.headD "")

/-- A group says something: its first word and the words behind it do. -/
def Means : List String → Setting → Prop
  | [], _ => False
  | first :: arguments, setting => Reads first arguments setting

theorem Means.kindOf_eq {words : List String} {setting : Setting} (meaning : Means words setting)
    : kindOf words = setting.kind := by
  cases words with
  | nil => exact meaning.elim
  | cons first arguments => exact meaning.kind.symm

/-- The groups put together are the command line. -/
theorem flatten_groups (words : List String) : (groups words).flatten = words := by
  fun_induction groups words with
  | case1 => rfl
  | case2 first words ih =>
      rw [List.flatten_cons, ih, List.cons_append, List.take_append_drop]

section Rows

variable {row : List (List String)} {settings : List Setting}

/-- A row of groups that say something is cut into these groups. -/
theorem groups_flatten (meaning : List.Forall₂ Means row settings) : groups row.flatten = row := by
  induction meaning with
  | nil => simp [groups]
  | @cons words setting row settings here _ ih =>
      cases words with
      | nil => exact here.elim
      | cons first arguments =>
          rw [List.flatten_cons, List.cons_append, groups, ← here.enough, List.take_left,
            List.drop_left, ih]

/-- A row of groups that say something is read as what they say, one after the other. -/
theorem parseFrom_flatten (meaning : List.Forall₂ Means row settings) (options : Options)
    : options.parseFrom row.flatten = .ok (settings.foldl Setting.apply options) := by
  induction meaning generalizing options with
  | nil => simp [Options.parseFrom]
  | @cons words setting row settings here _ ih =>
      cases words with
      | nil => exact here.elim
      | cons first arguments =>
          rw [List.flatten_cons, List.cons_append, Options.parseFrom, here.group options,
            ← here.enough]
          simp only [bind, Except.bind, List.drop_left]
          exact ih (setting.apply options)

/-- Every group of a command line that is read says something, by induction on the reading. -/
theorem exists_meanings {words : List String} {options result : Options}
    (read : options.parseFrom words = .ok result)
    : ∃ settings, List.Forall₂ Means (groups words) settings := by
  fun_induction groups words generalizing options with
  | case1 => exact ⟨[], .nil⟩
  | case2 first words ih =>
      rw [Options.parseFrom] at read
      obtain ⟨step, grouped, read⟩ := exists_of_bind_eq_ok read
      obtain ⟨setting, reads⟩ := exists_reads grouped
      obtain rfl := Except.ok.inj (grouped.symm.trans (reads.group_eq options))
      obtain ⟨settings, meaning⟩ := ih read
      exact ⟨setting :: settings, .cons reads meaning⟩

end Rows

end MeshControl.Probe
