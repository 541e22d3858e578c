/-
# Database.TemplateOptions -- the templates with options of database/dao/template.c

A text is put together from `sql` and the `sql_part` of every option, each of them printed as a
format of `utstring_printf` without arguments; then every option but those of `DAO_TYPE_NULL`
binds its value to the next parameter; and then one function counts rows for reads and
changes for writes.

* `printf_eq_iff`: a text is printed as it stands exactly when it is `Plain`: it has no `%` and
  its length is an `int`;
* `bindOptions_apply` says what each parameter is bound to;
* `runs_assembled_iff` and `returns_counts_iff` are the outcomes, for the text that is run and
  the number that is returned.
-/
import ChargerStack.Database.TemplateResults
import ChargerStack.Database.Templates

namespace ChargerStack.Database.TemplateOptions

open ChargerStack.Cxx
open ChargerStack.Utils.LruCache (Key)
open ChargerStack.Database.Templates (assemble)
open ChargerStack.Database.TemplateResults

set_option autoImplicit false

universe u

/-! ## Texts -/

/-- `'%'`. -/
def percent : UInt8 := 37

/-- The conversions of a format without arguments: `%%` is a `%`, and what any other conversion
prints is not defined. -/
def conversions : Key → Option Key
  | [] => some []
  | [c] => if c = percent then none else some [c]
  | c :: d :: rest =>
      if c ≠ percent then (conversions (d :: rest)).map (c :: ·)
      else if d = percent then (conversions rest).map (percent :: ·)
      else none

/-- `vsnprintf` without arguments; it counts in an `int`. -/
def printf (text : Key) : Option Key :=
  (conversions text).bind fun out => if out.length < 2 ^ 31 then some out else none

/-- `format` is what `utstring_printf` makes of a text it gets as its format: as the standard
has it where it says so, and anything elsewhere. -/
def Formats (format : Key → Key) : Prop := ∀ text out, printf text = some out → format text = out

/-- A text that means itself as a format. -/
def Plain (text : Key) : Prop := percent ∉ text ∧ text.length < 2 ^ 31

/-- A conversion makes the text shorter. -/
theorem conversions_length : ∀ {text out : Key}, conversions text = some out →
    out.length ≤ text.length ∧ (percent ∈ text → out.length < text.length)
  | [], out, printed => by
      obtain rfl := Option.some.inj printed
      simp
  | [c], out, printed => by
      obtain ⟨other, same⟩ := Option.ite_none_left_eq_some.1 printed
      obtain rfl := Option.some.inj same
      simp [Ne.symm other]
  | c :: d :: rest, out, printed => by
      rw [conversions] at printed
      split at printed
      · rename_i other
        obtain ⟨tail, behind, rfl⟩ := Option.map_eq_some_iff.1 printed
        obtain ⟨below, strict⟩ := conversions_length behind
        refine ⟨?_, fun inside => ?_⟩
        · simpa using below
        · simpa using strict ((List.mem_cons.1 inside).resolve_left (Ne.symm other))
      · obtain ⟨-, printed⟩ := Option.ite_none_right_eq_some.1 printed
        obtain ⟨tail, behind, rfl⟩ := Option.map_eq_some_iff.1 printed
        have below := (conversions_length behind).1
        simp only [List.length_cons]
        omega

theorem conversions_self : ∀ {text : Key}, percent ∉ text → conversions text = some text
  | [], _ => rfl
  | [c], free => by
      rw [conversions, if_neg (fun same => free (List.mem_singleton.2 same.symm))]
  | c :: d :: rest, free => by
      rw [List.mem_cons, not_or] at free
      rw [conversions, if_pos (Ne.symm free.1), conversions_self free.2, Option.map_some]

theorem printf_eq_iff {text : Key} : printf text = some text ↔ Plain text := by
  unfold printf
  constructor
  · intro printed
    obtain ⟨out, converted, short⟩ := Option.bind_eq_some_iff.1 printed
    obtain ⟨small, same⟩ := Option.ite_none_right_eq_some.1 short
    obtain rfl := Option.some.inj same
    exact ⟨fun inside => Nat.lt_irrefl _ ((conversions_length converted).2 inside), small⟩
  · rintro ⟨free, small⟩
    rw [conversions_self free, Option.bind_some, if_pos small]

theorem format_plain {format : Key → Key} (formats : Formats format) {text : Key}
    (plain : Plain text) : format text = text := formats text text (printf_eq_iff.2 plain)

/-- The format that prints nothing where it may print anything. -/
def least (text : Key) : Key := (printf text).getD []

theorem formats_least : Formats least := fun text out printed => by simp [least, printed]

theorem least_length (text : Key) :
    (least text).length ≤ text.length ∧ (¬ Plain text → (least text).length < text.length) := by
  unfold least
  cases printed : printf text with
  | some out =>
      obtain ⟨out', converted, short⟩ := Option.bind_eq_some_iff.1 printed
      obtain ⟨small, same⟩ := Option.ite_none_right_eq_some.1 short
      obtain rfl := Option.some.inj same
      obtain ⟨below, strict⟩ := conversions_length converted
      refine ⟨below, fun special => ?_⟩
      by_cases inside : percent ∈ text
      · exact strict inside
      · refine absurd ⟨inside, ?_⟩ special
        rwa [Option.some.inj ((conversions_self inside).symm.trans converted)]
  | none =>
      refine ⟨Nat.zero_le _, fun special => List.length_pos_iff.2 ?_⟩
      rintro rfl
      exact special ⟨List.not_mem_nil, by decide⟩

/-! ## The text of a call -/

inductive DaoType where
  | int32
  | int64
  | float32
  | float64
  | text
  | null
  deriving DecidableEq, Repr

/-- `dao_option_t`; `userp` is the word that stands for a number or an address. -/
structure DaoOption where
  userp : Int
  sqlPart : Key
  type : DaoType
  deriving DecidableEq, Repr

/-- `sql` and the parts, as they stand. -/
def concatenation (sql : Key) (options : List DaoOption) : Key :=
  sql ++ (options.map DaoOption.sqlPart).flatten

/-- The text that `dao_template_base_with_option` passes to `prepared_stmt_get`. -/
def sqlText (format : Key → Key) (sql : Key) (options : List DaoOption) : Key :=
  assemble format sql (options.map DaoOption.sqlPart)

/-- All the texts of a call are plain. -/
def AllPlain (sql : Key) (options : List DaoOption) : Prop :=
  Plain sql ∧ ∀ p ∈ options, Plain p.sqlPart

theorem sqlText_plain {format : Key → Key} (formats : Formats format) {sql : Key}
    {options : List DaoOption} (plain : AllPlain sql options) :
    sqlText format sql options = concatenation sql options := by
  have parts : options.map (format ∘ DaoOption.sqlPart) = options.map DaoOption.sqlPart :=
    List.map_congr_left fun p inside => format_plain formats (plain.2 p inside)
  rw [sqlText, assemble, List.map_map, parts, format_plain formats plain.1]
  rfl

theorem flatten_length_lt {f : Key → Key} (le : ∀ t, (f t).length ≤ t.length) : ∀ parts : List Key,
    (parts.map f).flatten.length ≤ parts.flatten.length ∧
      ((∃ t ∈ parts, (f t).length < t.length) → (parts.map f).flatten.length < parts.flatten.length)
  | [] => by simp
  | t :: parts => by
      obtain ⟨below, strict⟩ := flatten_length_lt le parts
      have here := le t
      simp only [List.map_cons, List.flatten_cons, List.length_append]
      refine ⟨by omega, ?_⟩
      rintro ⟨x, inside, less⟩
      rcases List.mem_cons.1 inside with rfl | inside
      · omega
      · have := strict ⟨x, inside, less⟩
        omega

/-- A text that is not plain is lost in the least format. -/
theorem sqlText_least {sql : Key} {options : List DaoOption}
    (same : sqlText least sql options = concatenation sql options) : AllPlain sql options := by
  have le := fun t => (least_length t).1
  obtain ⟨below, strict⟩ := flatten_length_lt le (options.map DaoOption.sqlPart)
  have here := le sql
  have lengths := congrArg List.length same
  rw [sqlText, assemble, concatenation, List.length_append, List.length_append] at lengths
  constructor
  · by_contra special
    have := (least_length sql).2 special
    omega
  · intro p inside
    by_contra special
    have := strict ⟨p.sqlPart, List.mem_map_of_mem inside, (least_length p.sqlPart).2 special⟩
    omega

/-! ## The parameters -/

/-- What a parameter is bound to; a `double` is known by the number it was converted from. -/
inductive Param where
  | null
  | integer (n : Int)
  | float32 (n : Int)
  | float64 (n : Int)
  | text (t : Key)
  deriving DecidableEq, Repr

/-- The value that an option binds; `strings` is the C string at an address, if it is not null. -/
def DaoOption.value (strings : Int → Option Key) (p : DaoOption) : Option Param :=
  match p.type with
  | .int32 => some (.integer (int32 (int64 p.userp)))
  | .int64 => some (.integer (int64 p.userp))
  | .float32 => some (.float32 (int64 p.userp))
  | .float64 => some (.float64 (int64 p.userp))
  | .text => some (match strings p.userp with | none => .null | some t => .text t)
  | .null => none

/-- A `sqlite3_bind_...` of a statement with so many parameters; `SQLITE_RANGE` is only logged. -/
def bindAt (count i : Nat) (value : Param) (params : Nat → Param) : Nat → Param :=
  if 1 ≤ i ∧ i ≤ count then Function.update params i value else params

/-- The loop over the options, from the parameter `i` on. -/
def bindOptions (strings : Int → Option Key) (count : Nat) :
    Nat → List DaoOption → (Nat → Param) → Nat → Param
  | _, [], params => params
  | i, p :: options, params =>
      match p.value strings with
      | none => bindOptions strings count i options params
      | some value => bindOptions strings count (i + 1) options (bindAt count i value params)

/-- The options that bind something. -/
def binding (options : List DaoOption) : List DaoOption := options.filter fun p => p.type ≠ .null

theorem value_isSome (strings : Int → Option Key) (p : DaoOption) :
    (p.value strings).isSome = decide (p.type ≠ .null) := by
  unfold DaoOption.value
  cases p.type <;> rfl

variable {strings : Int → Option Key} {count : Nat}

/-- The parameters before are left alone. -/
theorem bindOptions_before (options : List DaoOption) {i k : Nat} (params : Nat → Param)
    (before : k < i) : bindOptions strings count i options params k = params k := by
  induction options generalizing i params with
  | nil => rfl
  | cons p options ih =>
      cases value : p.value strings with
      | none =>
          simp only [bindOptions, value]
          exact ih params before
      | some v =>
          simp only [bindOptions, value]
          rw [ih _ (Nat.lt_succ_of_lt before), bindAt]
          split
          · exact Function.update_of_ne (Nat.ne_of_lt before) ..
          · rfl

/-- **What the parameters are bound to.** -/
theorem bindOptions_apply (options : List DaoOption) {i k : Nat} (params : Nat → Param)
    {p : DaoOption} (found : (binding options)[k]? = some p) (low : 1 ≤ i) (high : i + k ≤ count) :
    some (bindOptions strings count i options params (i + k)) = p.value strings := by
  induction options generalizing i k params with
  | nil => simp [binding] at found
  | cons q options ih =>
      have binds := value_isSome strings q
      cases value : q.value strings with
      | none =>
          have null : ¬ q.type ≠ .null := by simpa [value] using binds
          rw [binding, List.filter_cons_of_neg (by simpa using null)] at found
          simp only [bindOptions, value]
          exact ih params found low high
      | some v =>
          have other : q.type ≠ .null := by simpa [value] using binds
          rw [binding, List.filter_cons_of_pos (by simpa using other)] at found
          simp only [bindOptions, value]
          cases k with
          | zero =>
              obtain rfl : q = p := by simpa using found
              have first : bindOptions strings count (i + 1) options (bindAt count i v params) i = v := by
                rw [bindOptions_before options _ (Nat.lt_add_one i), bindAt, if_pos ⟨low, high⟩,
                  Function.update_self]
              exact (congrArg some first).trans value.symm
          | succ k =>
              rw [List.getElem?_cons_succ] at found
              rw [show i + (k + 1) = i + 1 + k by omega]
              exact ih _ found (by omega) (by omega)

/-! ## The templates -/

/-- What a call meets: the format, the strings in memory, and of SQLite how many parameters a text
has (they are numbered in the order of the `?`s), whether it compiles, what its parameters were
bound to before, and what it does. -/
structure Env (R : Type u) where
  format : Key → Key
  strings : Int → Option Key
  parameterCount : Key → Nat
  compiles : Key → Bool
  bound : Key → Nat → Param
  execute : Key → (Nat → Param) → Execution R

/-- A call: what it returns, the text it asked for, and what its parameters were bound to when it
was run. -/
structure Call where
  ret : Int
  text : Option Key
  params : Option (Nat → Param)

variable {R : Type u}

/-- The parameters of the statement, when it is stepped. -/
def Env.params (env : Env R) (sql : Key) (options : List DaoOption) : Nat → Param :=
  let text := sqlText env.format sql options
  bindOptions env.strings (env.parameterCount text) 1 options (env.bound text)

/-- What SQLite does with the call; `none` when the text does not compile. -/
def Env.execution (env : Env R) (sql : Key) (options : List DaoOption) : Option (Execution R) :=
  let text := sqlText env.format sql options
  if env.compiles text then some (env.execute text (env.params sql options)) else none

/-- `dao_template_base_with_option`. -/
def daoTemplateBaseWithOption (env : Env R) (history : List (Execution R)) (sql : Option Key)
    (options : Option (List DaoOption)) : Call :=
  match sql, options with
  | some sql, some options =>
      match env.execution sql options with
      | none => ⟨-1, some (sqlText env.format sql options), none⟩
      | some ex =>
          let lineNum := int32 ex.rows.length
          let ret := if lineNum = 0 then sqlite3Changes (history ++ [ex]) else lineNum
          ⟨ret, some (sqlText env.format sql options), some (env.params sql options)⟩
  | _, _ => ⟨-1, none, none⟩

/-- `dao_template_get_with_option`; the last argument says that there is an `unmarshal_cb`. -/
def daoTemplateGetWithOption (env : Env R) (history : List (Execution R)) (sql : Option Key)
    (options : Option (List DaoOption)) (unmarshalCb : Bool) : Call :=
  if unmarshalCb then daoTemplateBaseWithOption env history sql options else ⟨-1, none, none⟩

/-- `dao_template_delete_with_option`. -/
def daoTemplateDeleteWithOption (env : Env R) (history : List (Execution R)) (sql : Option Key)
    (options : Option (List DaoOption)) : Call := daoTemplateBaseWithOption env history sql options

/-- `dao_template_update_with_option`. -/
def daoTemplateUpdateWithOption (env : Env R) (history : List (Execution R)) (sql : Option Key)
    (options : Option (List DaoOption)) : Call := daoTemplateBaseWithOption env history sql options

/-! ## The text that is run -/

/-- The call asks for the concatenation; and when the text has a parameter for each option that
binds, they are bound to the values of these options, in order. -/
def RunsConcatenation (env : Env R) (sql : Key) (options : List DaoOption) (call : Call) : Prop :=
  call.text = some (concatenation sql options) ∧
    ∀ params, call.params = some params →
      env.parameterCount (concatenation sql options) = (binding options).length →
        ∀ k p, (binding options)[k]? = some p → some (params (k + 1)) = p.value env.strings

/-- The three templates do. -/
def AllRunConcatenation (env : Env R) (history : List (Execution R)) (sql : Key)
    (options : List DaoOption) : Prop :=
  RunsConcatenation env sql options
      (daoTemplateGetWithOption env history (some sql) (some options) true) ∧
    RunsConcatenation env sql options
      (daoTemplateDeleteWithOption env history (some sql) (some options)) ∧
    RunsConcatenation env sql options
      (daoTemplateUpdateWithOption env history (some sql) (some options))

theorem base_text (env : Env R) (history : List (Execution R)) (sql : Key) (options : List DaoOption) :
    (daoTemplateBaseWithOption env history (some sql) (some options)).text =
      some (sqlText env.format sql options) := by
  unfold daoTemplateBaseWithOption
  dsimp only
  split <;> rfl

theorem base_params {env : Env R} {history : List (Execution R)} {sql : Key} {options : List DaoOption}
    {params : Nat → Param}
    (ran : (daoTemplateBaseWithOption env history (some sql) (some options)).params = some params) :
    params = env.params sql options := by
  unfold daoTemplateBaseWithOption at ran
  dsimp only at ran
  split at ran
  · cases ran
  · exact (Option.some.inj ran).symm

theorem base_runs_iff {env : Env R} {history : List (Execution R)} {sql : Key}
    {options : List DaoOption} :
    RunsConcatenation env sql options (daoTemplateBaseWithOption env history (some sql) (some options)) ↔
      sqlText env.format sql options = concatenation sql options := by
  rw [RunsConcatenation, base_text]
  constructor
  · exact fun runs => Option.some.inj runs.1
  · intro same
    refine ⟨congrArg some same, fun params ran count k p found => ?_⟩
    have inside : k < (binding options).length := (List.getElem?_eq_some_iff.1 found).1
    rw [base_params ran, Env.params, Nat.add_comm, same, count]
    exact bindOptions_apply options _ found (Nat.le_refl 1) (by omega)

/-- **The text and the parameters of a call with options.**  Whatever `utstring_printf` makes of
what the standard leaves open, the three templates run the concatenation of their texts, with
the values of the options bound in order, if and only if none of the texts has a `%` in it and
none is longer than an `int` can say. -/
theorem runs_assembled_iff (env : Env R) (history : List (Execution R)) (sql : Key)
    (options : List DaoOption) :
    (∀ format, Formats format → AllRunConcatenation { env with format := format } history sql options) ↔
      AllPlain sql options := by
  constructor
  · intro always
    exact sqlText_least (base_runs_iff.1 (always least formats_least).2.1)
  · intro plain format formats
    have runs : RunsConcatenation { env with format := format } sql options
        (daoTemplateBaseWithOption { env with format := format } history (some sql) (some options)) :=
      base_runs_iff.2 (sqlText_plain formats plain)
    exact ⟨runs, runs, runs⟩

/-- `select '%%'`. -/
def percentText : Key := [115, 101, 108, 101, 99, 116, 32, 39, 37, 37, 39]

/-- The two signs are printed as one. -/
theorem percent_is_printed : ¬ ∀ (env : Env Unit) (history : List (Execution Unit)) (sql : Key)
    (options : List DaoOption), Formats env.format → AllRunConcatenation env history sql options := by
  intro always
  have runs := always ⟨least, fun _ => none, fun _ => 0, fun _ => true, fun _ _ => .null,
    fun _ _ => ⟨[], true, false, 0⟩⟩ [] percentText [] formats_least
  have plain := (sqlText_least (base_runs_iff.1 runs.2.1)).1
  exact plain.1 (by decide)

/-! ## The number that is returned -/

/-- `dao_template_get_with_option` returns what `dao_template_get` returns for the same statement,
and that is the number of rows given to `unmarshal_cb`. -/
def CountsRows (env : Env R) (sql : Key) (options : List DaoOption) (call : Call) : Prop :=
  call.ret = daoTemplateGet (env.execution sql options) ∧
    ∀ ex, env.execution sql options = some ex → call.ret = ex.rows.length

/-- A write returns the number of rows it changed, and a negative number if it failed. -/
def CountsChanges (env : Env R) (sql : Key) (options : List DaoOption) (call : Call) : Prop :=
  match env.execution sql options with
  | none => call.ret < 0
  | some ex => if ex.done then call.ret = ex.changes else call.ret < 0

/-- There are rows, or the counter of the connection is 0. -/
def RowsTell (history : List (Execution R)) (ex : Execution R) : Prop :=
  ex.rows.length < 2 ^ 31 ∧
    (ex.rows = [] → if ex.counts then int32 ex.changed = 0 else sqlite3Changes history = 0)

/-- The statement is completed and hands out no row, and it is an INSERT, UPDATE or DELETE or the
counter of the connection is 0; or it hands out as many rows as it changed.  The remaining
cases are those of numbers that wrapped. -/
def ChangesTell (history : List (Execution R)) (ex : Execution R) : Prop :=
  if int32 ex.rows.length = 0 then
    if ex.done then if ex.writes then ex.changed < 2 ^ 31 else sqlite3Changes history = 0
    else sqlite3Changes history < 0
  else if ex.done then int32 ex.rows.length = ex.changes
  else int32 ex.rows.length < 0

theorem int32_natCast_iff {n : Nat} : int32 n = n ↔ n < 2 ^ 31 := by
  constructor
  · intro same
    have := (int32_range n).2
    omega
  · exact fun small => int32_of_range (by omega) (by omega)

theorem base_ret {env : Env R} {history : List (Execution R)} {sql : Key} {options : List DaoOption}
    {ex : Execution R} (ran : env.execution sql options = some ex) :
    (daoTemplateBaseWithOption env history (some sql) (some options)).ret =
      if int32 ex.rows.length = 0 then
        if ex.counts then int32 ex.changed else sqlite3Changes history
      else int32 ex.rows.length := by
  simp only [daoTemplateBaseWithOption, ran, sqlite3Changes_snoc]

theorem base_ret_none {env : Env R} {history : List (Execution R)} {sql : Key}
    {options : List DaoOption} (refused : env.execution sql options = none) :
    (daoTemplateBaseWithOption env history (some sql) (some options)).ret = -1 := by
  simp only [daoTemplateBaseWithOption, refused]

theorem countsRows_iff {env : Env R} {history : List (Execution R)} {sql : Key}
    {options : List DaoOption} :
    CountsRows env sql options (daoTemplateBaseWithOption env history (some sql) (some options)) ↔
      ∀ ex, env.execution sql options = some ex → RowsTell history ex := by
  unfold CountsRows
  cases ran : env.execution sql options with
  | none => simp [base_ret_none ran, daoTemplateGet]
  | some ex =>
      have counter : ∀ n : Nat, 2 ^ 31 ≤ n →
          (if ex.counts then int32 ex.changed else sqlite3Changes history) ≠ n := by
        intro n large
        have := (int32_range ex.changed).2
        have := sqlite3Changes_range history
        split <;> omega
      simp only [base_ret ran, daoTemplateGet, Option.some.injEq, forall_eq', RowsTell]
      by_cases small : ex.rows.length < 2 ^ 31
      · have line := int32_natCast_iff.2 small
        rw [line]
        by_cases empty : ex.rows = []
        · cases ex.counts <;> simp [empty]
        · refine iff_of_true ?_ ⟨small, fun none => absurd none empty⟩
          simp [empty]
      · have line : int32 ex.rows.length ≠ ex.rows.length := mt int32_natCast_iff.1 small
        refine iff_of_false ?_ fun tells => small tells.1
        rintro ⟨-, same⟩
        split at same
        · exact counter _ (Nat.not_lt.1 small) same
        · exact line same

theorem countsChanges_iff {env : Env R} {history : List (Execution R)} {sql : Key}
    {options : List DaoOption} :
    CountsChanges env sql options
        (daoTemplateBaseWithOption env history (some sql) (some options)) ↔
      ∀ ex, env.execution sql options = some ex → ChangesTell history ex := by
  unfold CountsChanges
  cases ran : env.execution sql options with
  | none => simp [base_ret_none ran]
  | some ex =>
      simp only [base_ret ran, Option.some.injEq, forall_eq', ChangesTell]
      by_cases line : int32 ex.rows.length = 0
      · rw [if_pos line, if_pos line]
        by_cases done : ex.done = true
        · by_cases writes : ex.writes = true
          · simp [Execution.changes, Execution.counts, done, writes, int32_natCast_iff]
          · simp [Execution.changes, Execution.counts, done, writes]
        · simp [Execution.counts, done]
      · rw [if_neg line, if_neg line]

/-- **The numbers of the templates with options.**  For every history of the connection, every
text and every list of options: the reading template returns the number of rows exactly when
the statement does not compile or the rows tell, and the writing templates the number of
changes exactly when it does not compile or the changes tell. -/
theorem returns_counts_iff (env : Env R) (history : List (Execution R)) (sql : Key)
    (options : List DaoOption) :
    (CountsRows env sql options
        (daoTemplateGetWithOption env history (some sql) (some options) true) ↔
      ∀ ex, env.execution sql options = some ex → RowsTell history ex) ∧
    (CountsChanges env sql options
        (daoTemplateDeleteWithOption env history (some sql) (some options)) ↔
      ∀ ex, env.execution sql options = some ex → ChangesTell history ex) ∧
    (CountsChanges env sql options
        (daoTemplateUpdateWithOption env history (some sql) (some options)) ↔
      ∀ ex, env.execution sql options = some ex → ChangesTell history ex) :=
  ⟨countsRows_iff, countsChanges_iff, countsChanges_iff⟩

/-- A DELETE of three rows, and then a read that finds nothing. -/
theorem stale_counter_returned : ¬ ∀ (env : Env Unit) (history : List (Execution Unit)) (sql : Key)
    (options : List DaoOption),
    CountsRows env sql options
      (daoTemplateGetWithOption env history (some sql) (some options) true) := by
  intro always
  have counts := always ⟨least, fun _ => none, fun _ => 0, fun _ => true, fun _ _ => .null,
    fun _ _ => ⟨[], true, false, 0⟩⟩ [⟨[], true, true, 3⟩] percentText []
  have tells := (countsRows_iff.1 counts _ rfl).2 rfl
  exact absurd tells (by decide)

end ChargerStack.Database.TemplateOptions
