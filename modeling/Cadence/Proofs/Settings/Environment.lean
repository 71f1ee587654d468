import Cadence.Proofs.Settings.FirstWeekday

/-!
# Environment — every environment configures the program

The texts of an environment are arbitrary. A text that spells no setting leaves the default of its
own setting, and touches no other.

- `FirstWeekdaySet`, `PreviewDaysSet`, `LogLevelSet`: what the text of a variable sets
- `SeparatelySet`: settings that differ only where the environments do
- `every_environment_configures`: the settings of any environment
-/

namespace Cadence

open Calendar Text

/-- The value of the first weekday is read, or it is Monday. -/
inductive FirstWeekdaySet (value : Option String) : Weekday → Prop
  | read {w : Weekday} (accepted : firstWeekday value = .ok w) : FirstWeekdaySet value w
  | fallback (refused : ∀ w, firstWeekday value ≠ .ok w) : FirstWeekdaySet value .monday

/-- The longest preview is the positive integer that a text spells, or 3660 days. -/
inductive PreviewDaysSet (value : Option String) : Nat → Prop
  | read {text : String} {n : Nat} (given : value = some text)
      (spells : SpellsInteger (trim isBlank text.toList) n) (positive : 0 < n) :
      PreviewDaysSet value n
  | fallback
      (nothing : ∀ text n, value = some text → SpellsInteger (trim isBlank text.toList) n → n ≤ 0) :
      PreviewDaysSet value 3660

/-- The level is the one whose name a text spells in upper case, or 20. -/
inductive LogLevelSet (upper : Char → List Char) (value : Option String) : Int → Prop
  | read {text name : String} {level : Int} (given : value = some text)
      (known : (name, level) ∈ Log.names)
      (spells : (trim isBlank text.toList).flatMap upper = name.toList) :
      LogLevelSet upper value level
  | fallback (unknown : ∀ text name level, value = some text → (name, level) ∈ Log.names →
      (trim isBlank text.toList).flatMap upper ≠ name.toList) : LogLevelSet upper value 20

/-- Each setting is the same in two environments that agree on its variable. -/
structure SeparatelySet (env env' : Environment) (s s' : Settings) : Prop where
  firstWeekday : env "RECURRENCE_FIRST_WEEKDAY" = env' "RECURRENCE_FIRST_WEEKDAY" →
    s.firstWeekday = s'.firstWeekday
  databaseUrl : env "DATABASE_URL" = env' "DATABASE_URL" → s.databaseUrl = s'.databaseUrl
  frontendOrigin : env "FRONTEND_ORIGIN" = env' "FRONTEND_ORIGIN" →
    s.frontendOrigin = s'.frontendOrigin
  maxPreviewDays :
    env "RECURRENCE_MAX_PREVIEW_DAYS" = env' "RECURRENCE_MAX_PREVIEW_DAYS" →
      s.maxPreviewDays = s'.maxPreviewDays
  logLevel : env "LOG_LEVEL" = env' "LOG_LEVEL" → s.logLevel = s'.logLevel

/-! ## The first weekday -/

theorem ofPosition_position (w : Weekday) : Weekday.ofPosition w.position = .ok w := by
  rw [Weekday.ofPosition, ofPosition?_eq_some_iff.2 rfl]

/-- The calendar accepts the position of every weekday. -/
theorem build_eq_load (env : Environment) : Settings.build env = .ok (Settings.load env) :=
  bind_of_ok (ofPosition_position (Settings.load env).firstWeekday)

theorem firstWeekdaySet_load (env : Environment) :
    FirstWeekdaySet (env "RECURRENCE_FIRST_WEEKDAY") (Settings.load env).firstWeekday := by
  cases hread : firstWeekday (env "RECURRENCE_FIRST_WEEKDAY") with
  | ok w =>
    simp only [Settings.load, hread]
    exact .read hread
  | error fault =>
    simp only [Settings.load, hread]
    refine .fallback fun w hw => ?_
    rw [hread] at hw
    cases hw

/-! ## The longest preview -/

theorem previewDaysSet (value : Option String) : PreviewDaysSet value (previewDays value) := by
  cases value with
  | none => exact .fallback nofun
  | some text =>
    cases hread : integer (trim isBlank text.toList) with
    | error fault =>
      simp only [previewDays, hread]
      refine .fallback fun text' n hgiven hspells => ?_
      cases hgiven
      rw [integer_eq_ok_iff.2 hspells] at hread
      cases hread
    | ok n =>
      simp only [previewDays, hread]
      split
      · rename_i hpositive
        have hn : ((n.toNat : Nat) : Int) = n := Int.toNat_of_nonneg (Int.le_of_lt hpositive)
        refine .read rfl (integer_eq_ok_iff.1 ?_) (Int.lt_toNat.2 hpositive)
        rw [hread, hn]
      · rename_i hnegative
        refine .fallback fun text' n' hgiven hspells => ?_
        cases hgiven
        rw [integer_eq_ok_iff.2 hspells] at hread
        cases hread
        exact Int.not_lt.1 hnegative

theorem PreviewDaysSet.one_le {value : Option String} {n : Nat} (h : PreviewDaysSet value n) :
    1 ≤ n := by
  cases h with
  | read given spells positive => exact positive
  | fallback nothing => decide

/-! ## The level of the log -/

theorem levelOf?_of_mem_names :
    Log.names.all (fun e => Log.levelOf? e.1 == some e.2) = true := by decide

theorem levelOf?_eq_some_iff {name : String} {level : Int} :
    Log.levelOf? name = some level ↔ (name, level) ∈ Log.names := by
  constructor
  · intro h
    rcases Option.map_eq_some_iff.1 h with ⟨⟨name', level'⟩, hfind, rfl⟩
    have hname : name' = name := by simpa using List.find?_some hfind
    rw [← hname]
    exact List.mem_of_find?_eq_some hfind
  · intro h
    exact beq_iff_eq.1 (List.all_eq_true.1 levelOf?_of_mem_names (name, level) h)

/-- Names of levels are written in ASCII, and no ligature stands for letters of theirs. -/
theorem plain_level_names :
    Log.names.all (fun e =>
      e.1.toList.all (fun c => c.toNat < 128) &&
        ligatures.all (fun s => !(s <:+: e.1.toList))) = true := by
  decide

theorem spells_level_iff {upper : Char → List Char} (h : UpperCase upper) {cs : List Char}
    {name : String}
    {level : Int} (hknown : (name, level) ∈ Log.names) :
    cs.flatMap upper = name.toList ↔ cs.map capital = name.toList := by
  have hplain := List.all_eq_true.1 plain_level_names (name, level) hknown
  rcases Bool.and_eq_true_iff.1 hplain with ⟨hascii, hligatures⟩
  refine h.flatMap_eq_iff ?_ ?_
  · intro c hc
    exact of_decide_eq_true (List.all_eq_true.1 hascii c hc)
  · intro s hs
    simpa using List.all_eq_true.1 hligatures s hs

theorem logLevelSet {upper : Char → List Char} (h : UpperCase upper) (value : Option String) :
    LogLevelSet upper value (logLevel value) := by
  cases value with
  | none => exact .fallback nofun
  | some text =>
    cases hread : Log.levelOf? (String.ofList ((trim isBlank text.toList).map capital)) with
    | none =>
      have hlevel : logLevel (some text) = 20 := by
        rw [logLevel, Option.getD_some, hread]
        rfl
      rw [hlevel]
      refine .fallback fun text' name level hgiven hknown hspells => ?_
      cases hgiven
      rw [(spells_level_iff h hknown).1 hspells, String.ofList_toList,
        levelOf?_eq_some_iff.2 hknown] at hread
      cases hread
    | some level =>
      have hlevel : logLevel (some text) = level := by
        rw [logLevel, Option.getD_some, hread]
        rfl
      rw [hlevel]
      have hknown := levelOf?_eq_some_iff.1 hread
      refine .read rfl hknown ((spells_level_iff h hknown).2 ?_)
      rw [String.toList_ofList]

/-! ## All of them -/

theorem separatelySet_load (env env' : Environment) :
    SeparatelySet env env' (Settings.load env) (Settings.load env') where
  firstWeekday h := by simp only [Settings.load, h]
  databaseUrl h := by simp only [Settings.load, h]
  frontendOrigin h := by simp only [Settings.load, h]
  maxPreviewDays h := by simp only [Settings.load, h]
  logLevel h := by simp only [Settings.load, h]

/-- Settings are built in every environment. Each of them is what its own variable spells, or its
default, whatever the other variables hold. -/
theorem every_environment_configures {upper : Char → List Char} (h : UpperCase upper)
    (env : Environment) :
    ∃ s, Settings.build env = .ok s ∧
      (s.firstWeekday.position ≤ 6 ∧
        FirstWeekdaySet (env "RECURRENCE_FIRST_WEEKDAY") s.firstWeekday) ∧
      (1 ≤ s.maxPreviewDays ∧ PreviewDaysSet (env "RECURRENCE_MAX_PREVIEW_DAYS") s.maxPreviewDays) ∧
      LogLevelSet upper (env "LOG_LEVEL") s.logLevel ∧
      ∀ env' s', Settings.build env' = .ok s' → SeparatelySet env env' s s' := by
  have hpreview : PreviewDaysSet (env "RECURRENCE_MAX_PREVIEW_DAYS")
    (Settings.load env).maxPreviewDays :=
    previewDaysSet _
  have hlevel : LogLevelSet upper (env "LOG_LEVEL") (Settings.load env).logLevel := by
    dsimp only [Settings.load]
    exact logLevelSet h _
  refine ⟨Settings.load env, build_eq_load env, ⟨?_, firstWeekdaySet_load env⟩,
    ⟨hpreview.one_le, hpreview⟩, hlevel, ?_⟩
  · exact Nat.le_of_lt_succ (Weekday.position_lt _)
  · intro env' s' hs'
    rw [build_eq_load] at hs'
    cases hs'
    exact separatelySet_load env env'

/-- A longest preview in Arabic digits and a level with a dotless i, beside a first weekday that is
none. -/
def mixedEnvironment : Environment
  | "RECURRENCE_FIRST_WEEKDAY" => some "someday"
  | "RECURRENCE_MAX_PREVIEW_DAYS" => some " \u0669\u0660"
  | "LOG_LEVEL" => some "warn\u0131ng\n"
  | _ => none

theorem mixed_environment_configures :
    Settings.build mixedEnvironment = .ok
        { firstWeekday := .monday
          databaseUrl := "sqlite:///./recurrence.db"
          frontendOrigin := "http://localhost:3000"
          maxPreviewDays := 90
          logLevel := 30 } ∧
      FirstWeekdaySet (some "someday") .monday ∧ PreviewDaysSet (some " \u0669\u0660") 90 ∧
      LogLevelSet (fun c => [capital c]) (some "warn\u0131ng\n") 30 := by
  have hvalue : Settings.build mixedEnvironment = .ok
      { firstWeekday := .monday
        databaseUrl := "sqlite:///./recurrence.db"
        frontendOrigin := "http://localhost:3000"
        maxPreviewDays := 90
        logLevel := 30 } := toOption_eq_some (by decide +kernel)
  rcases every_environment_configures upperCase_capital mixedEnvironment with
    ⟨s, hbuild, ⟨-, hfirst⟩, ⟨-, hpreview⟩, hlevel, -⟩
  cases hvalue.symm.trans hbuild
  exact ⟨hvalue, hfirst, hpreview, hlevel⟩

end Cadence
