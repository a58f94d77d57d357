import AccessFilter.Cli.Report
import AccessFilter.Proofs.Text.Uppercase
import Mathlib.Data.List.TakeWhile

/-!
# Settings under a profile

A setting is what the command line gives, otherwise the first of its variables that is not empty,
otherwise its default. No other variable counts, those of other profiles included, if the profile has
no equals sign; with one, a part of a value may be taken for a variable.

* `Environment.holder`         the variable that a look-up of a name reads;
* `Environment.AgreeExcept`    two environments in which one variable differs;
* `Config.keys`, `Config.names`   the settings, and the variables they are read from;
* `Settings.effective`         the text of a setting;
* `Settings.resolve_eq_ok_iff`, `Settings.resolve_eq_error_iff`   when there are settings, and which;
* `Config.profiledName_not_mem_names`   no profile reads the variables of another one;
* `Settings.resolve_effective`   what counts for the settings of a run.
-/

namespace AccessFilter

/-! ## looking up a variable -/

namespace Environment

/-- The variable that a look-up of a name reads: what stands before the first equals sign. -/
def holder (name : String) : String := String.ofList (name.toList.takeWhile (· ≠ '='))

theorem holder_eq_self {name : String} (h : '=' ∉ name.toList) : holder name = name := by
  have hall : ∀ c ∈ name.toList, decide (c ≠ '=') = true := fun c hc =>
    decide_eq_true fun e => h (e ▸ hc)
  rw [holder, List.takeWhile_eq_self_iff.mpr hall, String.ofList_toList]

/-- A name without an equals sign is looked up as it is. -/
theorem find?_eq {name : String} (env : Environment) (h : '=' ∉ name.toList) :
    env.find? name = Fields.find? name env := by
  have hnone : name.toList.dropWhile (· ≠ '=') = [] :=
    List.dropWhile_eq_nil_iff.mpr fun c hc => decide_eq_true fun e => h (e ▸ hc)
  rw [Environment.find?, hnone]

/-- The environments differ in one variable at most. -/
def AgreeExcept (env env' : Environment) (x : String) : Prop :=
  ∀ y, y ≠ x → Fields.find? y env = Fields.find? y env'

variable {env env' : Environment} {x name : String}

theorem AgreeExcept.find? (h : AgreeExcept env env' x) (hx : x ≠ holder name) :
    env.find? name = env'.find? name := by
  rw [Environment.find?, Environment.find?]
  split
  · next hnone =>
    have hname : holder name = name := by
      refine holder_eq_self fun hmem => ?_
      have hfirst := List.dropWhile_eq_nil_iff.mp hnone '=' hmem
      simp at hfirst
    exact h name (hname ▸ hx.symm)
  · next inner hinner =>
    have hheld := h (holder name) hx.symm
    rw [holder] at hheld
    rw [hheld]

/-- Setting a variable changes no other one. -/
theorem agreeExcept_put (env : Environment) (x value : String) :
    env.AgreeExcept (Fields.put x value env) x :=
  fun y hy => (Fields.find?_put_of_ne x y value env hy).symm

theorem AgreeExcept.nonEmpty? (h : AgreeExcept env env' x) (hx : x ≠ holder name) :
    env.nonEmpty? name = env'.nonEmpty? name := by
  rw [Environment.nonEmpty?, Environment.nonEmpty?, h.find? hx]

def first? (env : Environment) (names : List String) : Option String :=
  names.findSome? env.nonEmpty?

theorem AgreeExcept.first? {names : List String} (h : AgreeExcept env env' x)
    (hx : x ∉ names.map holder) : env.first? names = env'.first? names := by
  induction names with
  | nil => rfl
  | cons name names ih =>
    rw [List.map_cons, List.mem_cons, not_or] at hx
    have hrest := ih hx.2
    rw [Environment.first?, Environment.first?] at hrest ⊢
    rw [List.findSome?_cons, List.findSome?_cons, h.nonEmpty? hx.1, hrest]

/-- The variables of a setting under a profile, the one that counts first. -/
def settingNames (profile key : String) : List String :=
  if profile = "" then [key] else [profiledName profile key, key]

theorem profiled?_eq_first? (env : Environment) (profile key : String) :
    env.profiled? profile key = env.first? (settingNames profile key) := by
  rw [profiled?, settingNames, Environment.first?]
  by_cases hp : profile = ""
  · subst hp
    cases h : env.nonEmpty? key <;> simp [h]
  · rw [if_neg hp, if_neg (by simpa using hp), List.findSome?_cons, List.findSome?_cons]
    cases env.nonEmpty? (profiledName profile key) <;> cases env.nonEmpty? key <;> rfl

end Environment

/-! ## the variables of the settings -/

namespace Config

open Environment

/-- The profile in force: the given one, otherwise the one that its variable names. -/
def profileInForce (env : Environment) (given : Option String) : String :=
  Text.uppercase (given.getD ((env.find? profileVariable).getD ""))

/-- The settings of a run in the order of the command line. -/
def keys : List String := ["POLICY_PATH", "SCHEMA_PATH", "SQL_PLACEHOLDER", "SQL_COMPARISONS"]

/-- The variables that the settings of a run are read from: the one for the profile, unless one is
given, and those of every setting. -/
def names (given : Option String) (profile : String) : List String :=
  (if given.isNone then [profileVariable] else []) ++ keys.flatMap (settingNames profile)

/-- The profile is brought to upper case once or twice, which is the same. -/
theorem ofProfile?_eq (env : Environment) (given : Option String) :
    ofProfile? env given = ofProfile env (profileInForce env given) := by
  have htwice : ∀ profile, ofProfile env profile = ofProfile env (Text.uppercase profile) := by
    intro profile
    rw [ofProfile, ofProfile, Text.uppercase_uppercase]
  cases given with
  | none => rfl
  | some profile => exact htwice profile

theorem uppercase_profileInForce (env : Environment) (given : Option String) :
    Text.uppercase (profileInForce env given) = profileInForce env given :=
  Text.uppercase_uppercase _

/-! ## profiles have variables of their own -/

theorem toList_profiledName (profile key : String) :
    (profiledName profile key).toList = profile.toList ++ '_' :: key.toList := by
  simp [profiledName]

/-- No setting ends in another one behind an underscore, so the name of a profile's variable tells
both apart. -/
theorem profiledName_inj {profile profile' key key' : String} (hkey : key ∈ "LOG_LEVEL" :: keys)
    (hkey' : key' ∈ keys) (h : profiledName profile key = profiledName profile' key') :
    profile = profile' ∧ key = key' := by
  have hends : ∀ key ∈ "LOG_LEVEL" :: keys, ∀ key' ∈ keys,
      ('_' :: key.toList <:+ '_' :: key'.toList → key = key') ∧
      ('_' :: key'.toList <:+ '_' :: key.toList → key = key') := by decide
  have hlist : profile.toList ++ '_' :: key.toList = profile'.toList ++ '_' :: key'.toList := by
    rw [← toList_profiledName, ← toList_profiledName, h]
  have hsuffix : '_' :: key'.toList <:+ profile.toList ++ '_' :: key.toList :=
    hlist ▸ List.suffix_append _ _
  have hsame : key = key' := by
    rcases List.suffix_or_suffix_of_suffix (List.suffix_append profile.toList _) hsuffix with h | h
    · exact (hends key hkey key' hkey').1 h
    · exact (hends key hkey key' hkey').2 h
  subst hsame
  exact ⟨String.toList_inj.mp (List.append_cancel_right hlist), rfl⟩

/-- The variables of a profile are not read under another one. -/
theorem profiledName_not_mem_names (given : Option String) {profile other key : String}
    (hother : other ≠ profile) (hkey : key ∈ "LOG_LEVEL" :: keys) :
    profiledName other key ∉ names given profile := by
  -- the profile's variable and the plain ones do not end in a setting behind an underscore
  have hplain : ∀ name ∈ profileVariable :: keys, profiledName other key ≠ name := by
    have hends : ∀ key ∈ "LOG_LEVEL" :: keys, ∀ name ∈ profileVariable :: keys,
        ¬ '_' :: key.toList <:+ name.toList := by decide
    rintro name hname rfl
    refine hends key hkey _ hname ?_
    rw [toList_profiledName]
    exact List.suffix_append _ _
  rw [names, List.mem_append, not_or]
  constructor
  · split
    · exact fun h => hplain _ List.mem_cons_self (List.mem_singleton.mp h)
    · exact List.not_mem_nil
  · intro h
    obtain ⟨key', hkey', h⟩ := List.mem_flatMap.mp h
    have hnotplain := hplain key' (List.mem_cons_of_mem _ hkey')
    rw [settingNames] at h
    split at h
    · exact hnotplain (List.mem_singleton.mp h)
    · rcases List.mem_cons.mp h with h | h
      · exact hother (profiledName_inj hkey hkey' h).1
      · exact hnotplain (List.mem_singleton.mp h)

/-- Under a profile without an equals sign no name has one. -/
theorem equals_not_mem_of_mem_names {given : Option String} {profile name : String}
    (h : '=' ∉ profile.toList) (hname : name ∈ names given profile) : '=' ∉ name.toList := by
  have hplain : ∀ name ∈ profileVariable :: keys, '=' ∉ name.toList := by decide
  rw [names, List.mem_append] at hname
  rcases hname with hname | hname
  · split at hname
    · exact hplain _ (List.mem_singleton.mp hname ▸ List.mem_cons_self)
    · cases hname
  · obtain ⟨key, hkey, hname⟩ := List.mem_flatMap.mp hname
    have hkeyplain := hplain key (List.mem_cons_of_mem _ hkey)
    rw [settingNames] at hname
    split at hname
    · exact List.mem_singleton.mp hname ▸ hkeyplain
    · rcases List.mem_cons.mp hname with rfl | hname
      · rw [toList_profiledName, List.mem_append, not_or, List.mem_cons, not_or]
        exact ⟨h, by decide, hkeyplain⟩
      · exact List.mem_singleton.mp hname ▸ hkeyplain

theorem map_holder_names (given : Option String) {profile : String} (h : '=' ∉ profile.toList) :
    (names given profile).map holder = names given profile :=
  (List.map_congr_left fun _ hname => holder_eq_self (equals_not_mem_of_mem_names h hname)).trans
    (List.map_id _)

end Config

/-! ## the settings of a run -/

/-- The names of the known styles, in lower case. -/
def Placeholder.known : List String :=
  ["postgres", "postgresql", "numbered", "question", "qmark", "?"]

theorem Placeholder.parse_eq_error_iff (text : String) :
    (∃ name, parse text = .error name) ↔ Text.asciiLower text ∉ known := by
  have hknown : known = ["postgres", "postgresql", "numbered"] ++ ["question", "qmark", "?"] := rfl
  rw [parse, hknown, List.mem_append, not_or]
  split
  · next h => simp [h]
  · next h =>
    split
    · next h' => simp [h']
    · next h' => simp [h, h']

namespace Settings

open Config

/-- The text of a setting: what the command line gives, otherwise the first of its variables that is
not empty. -/
def effective (env : Environment) (profile : String) (given : Option String) (key : String) :
    Option String :=
  given.or (env.first? (Environment.settingNames profile key))

/-- The settings that arguments and variables make, if there is a policy and the style is known. -/
theorem resolve_eq_ok_iff (args : Arguments) (config : Config) (s : Settings) :
    resolve args config = .ok s ↔
      args.policy.or config.policyPath = some s.policyPath ∧
      args.schema.or config.schemaPath = s.schemaPath ∧
      Placeholder.parse (args.placeholder.getD config.placeholder) = .ok s.placeholder ∧
      args.comparisonsFlag.getD config.comparisons = s.comparisons := by
  rw [resolve]
  cases args.policy.or config.policyPath with
  | none => simp
  | some policy =>
    cases Placeholder.parse (args.placeholder.getD config.placeholder) with
    | error name => simp
    | ok placeholder =>
      obtain ⟨policyPath, schemaPath, style, comparisons⟩ := s
      simp

theorem resolve_eq_error_iff (args : Arguments) (config : Config) :
    (∃ e, resolve args config = .error e) ↔
      args.policy.or config.policyPath = none ∨
      ∃ name, Placeholder.parse (args.placeholder.getD config.placeholder) = .error name := by
  rw [resolve]
  cases args.policy.or config.policyPath with
  | none => simp
  | some policy =>
    cases Placeholder.parse (args.placeholder.getD config.placeholder) with
    | error name => simp
    | ok placeholder => simp

/-- Variables give the first of each setting's own that is not empty, or its default. -/
theorem ofProfile?_eq_first? (env : Environment) (given : Option String) :
    let first := fun key => env.first? (Environment.settingNames (profileInForce env given) key)
    ofProfile? env given = {
      profile := profileInForce env given
      policyPath := first "POLICY_PATH"
      schemaPath := first "SCHEMA_PATH"
      placeholder := (first "SQL_PLACEHOLDER").getD "postgres"
      comparisons := ((first "SQL_COMPARISONS").map saysYes).getD false
      logLevel := (first "LOG_LEVEL").getD "warn" } := by
  simp only [ofProfile?_eq, ofProfile, uppercase_profileInForce, Environment.profiled?_eq_first?]

/-- A variable that no look-up reads changes no setting. -/
theorem resolve_of_agreeExcept (args : Arguments) {env env' : Environment} {x : String}
    (h : env.AgreeExcept env' x)
    (hx : x ∉ (names args.profile (profileInForce env args.profile)).map Environment.holder) :
    resolve args (ofProfile? env' args.profile) = resolve args (ofProfile? env args.profile) := by
  rw [names, List.map_append, List.mem_append, not_or] at hx
  obtain ⟨hprofile, hkeys⟩ := hx
  have hsame : profileInForce env' args.profile = profileInForce env args.profile := by
    rw [profileInForce, profileInForce]
    cases hgiven : args.profile with
    | some profile => rfl
    | none =>
      rw [hgiven] at hprofile
      have hvariable : x ≠ Environment.holder profileVariable := fun e =>
        hprofile (List.mem_singleton.mpr e)
      rw [h.find? hvariable]
  have hfirst : ∀ key ∈ keys,
      env'.first? (Environment.settingNames (profileInForce env args.profile) key)
        = env.first? (Environment.settingNames (profileInForce env args.profile) key) := by
    intro key hkey
    refine (h.first? fun hmem => hkeys ?_).symm
    obtain ⟨name, hname, hx⟩ := List.mem_map.mp hmem
    exact List.mem_map.mpr ⟨name, List.mem_flatMap.mpr ⟨key, hkey, hname⟩, hx⟩
  have hpolicy := hfirst "POLICY_PATH" (by decide)
  have hschema := hfirst "SCHEMA_PATH" (by decide)
  have hplaceholder := hfirst "SQL_PLACEHOLDER" (by decide)
  have hcomparisons := hfirst "SQL_COMPARISONS" (by decide)
  simp only [resolve, ofProfile?_eq_first?, hsame, hpolicy, hschema, hplaceholder, hcomparisons]

/-- **What counts for the settings of a run.** Each is what the command line gives, otherwise the
first of its variables that is not empty, otherwise its default, and there are none exactly if no
policy is so given or the style so given is unknown. A variable that no look-up reads changes nothing.
Under a profile without an equals sign every look-up reads the variable of its name: a plain one, one
of the profile's own or the one that names the profile. No variable of another profile is among
them. -/
theorem resolve_effective (args : Arguments) (env : Environment) :
    let profile := profileInForce env args.profile
    let settings := fun env => resolve args (ofProfile? env args.profile)
    let placeholder := (effective env profile args.placeholder "SQL_PLACEHOLDER").getD "postgres"
    (∀ s, settings env = .ok s ↔
      effective env profile args.policy "POLICY_PATH" = some s.policyPath ∧
      effective env profile args.schema "SCHEMA_PATH" = s.schemaPath ∧
      Placeholder.parse placeholder = .ok s.placeholder ∧
      args.comparisonsFlag.getD
        (((effective env profile none "SQL_COMPARISONS").map saysYes).getD false)
          = s.comparisons) ∧
    ((∃ e, settings env = .error e) ↔
      effective env profile args.policy "POLICY_PATH" = none ∨
      Text.asciiLower placeholder ∉ Placeholder.known) ∧
    (∀ env' x, env.AgreeExcept env' x →
      x ∉ (names args.profile profile).map Environment.holder → settings env' = settings env) ∧
    ('=' ∉ profile.toList →
      (∀ name ∈ names args.profile profile, env.find? name = Fields.find? name env) ∧
      ∀ env' x, env.AgreeExcept env' x →
        x ∉ names args.profile profile → settings env' = settings env) ∧
    (∀ other ≠ profile, ∀ key ∈ "LOG_LEVEL" :: keys,
      Environment.profiledName other key ∉ names args.profile profile) := by
  intro profile settings placeholder
  have hfirst := ofProfile?_eq_first? env args.profile
  have hpolicy : args.policy.or (ofProfile? env args.profile).policyPath
      = effective env profile args.policy "POLICY_PATH" := by
    rw [hfirst, effective]
  have hschema : args.schema.or (ofProfile? env args.profile).schemaPath
      = effective env profile args.schema "SCHEMA_PATH" := by
    rw [hfirst, effective]
  have hplaceholder : args.placeholder.getD (ofProfile? env args.profile).placeholder
      = placeholder := by
    simp only [hfirst, placeholder, effective]
    cases args.placeholder with
    | none => rw [Option.getD_none, Option.none_or]
    | some text => rw [Option.getD_some, Option.some_or, Option.getD_some]
  have hcomparisons : (ofProfile? env args.profile).comparisons
      = ((effective env profile none "SQL_COMPARISONS").map saysYes).getD false := by
    rw [hfirst, effective, Option.none_or]
  refine ⟨fun s => ?_, ?_, ?_, ?_, ?_⟩
  · rw [resolve_eq_ok_iff, hpolicy, hschema, hplaceholder, hcomparisons]
  · rw [resolve_eq_error_iff, hpolicy, hplaceholder, Placeholder.parse_eq_error_iff]
  · exact fun env' x h hx => resolve_of_agreeExcept args h hx
  · intro hequals
    refine ⟨fun name hname => ?_, fun env' x h hx => resolve_of_agreeExcept args h ?_⟩
    · exact env.find?_eq (equals_not_mem_of_mem_names hequals hname)
    · rwa [map_holder_names args.profile hequals]
  · exact fun other hother key hkey => profiledName_not_mem_names args.profile hother hkey

/-- An unknown style is hidden by the profile's own, and the policy of another profile does not
count. -/
theorem resolve_effective_prod :
    let args : Arguments := { profile := some "prod" }
    let env : Environment := [("PROD_POLICY_PATH", "p"), ("STAGE_POLICY_PATH", "q"),
      ("SQL_PLACEHOLDER", "colon"), ("PROD_SQL_PLACEHOLDER", "QMark")]
    resolve args (ofProfile? env args.profile) = .ok ⟨"p", none, .question, false⟩ ∧
      resolve args (ofProfile? (Fields.put "STAGE_POLICY_PATH" "r" env) args.profile)
        = .ok ⟨"p", none, .question, false⟩ := by
  intro args env
  obtain ⟨hok, -, -, hisolated, hother⟩ := resolve_effective args env
  have hsettings := (hok ⟨"p", none, .question, false⟩).mpr
    ⟨by decide, by decide, by decide, by decide⟩
  have hname : Environment.profiledName "STAGE" "POLICY_PATH" = "STAGE_POLICY_PATH" := by decide
  have hstage := hother "STAGE" (by decide) "POLICY_PATH" (by decide)
  rw [hname] at hstage
  have hsame := (hisolated (by decide)).2 _ _ (env.agreeExcept_put _ "r") hstage
  exact ⟨hsettings, hsame.trans hsettings⟩

/-- Under a profile with an equals sign a part of another variable's value is read as a policy. -/
theorem resolve_profile_with_equals :
    let args : Arguments := { profile := some "a=b" }
    let env : Environment := [("A", "B_POLICY_PATH=/x"), ("POLICY_PATH", "/d")]
    "A" ∉ names args.profile (profileInForce env args.profile) ∧
      (resolve args (ofProfile? env args.profile)).toOption.map (·.policyPath) = some "/x" ∧
      (resolve args (ofProfile? (Fields.put "A" "" env) args.profile)).toOption.map (·.policyPath)
        = some "/d" := by
  decide

end Settings

end AccessFilter
