import SourceOutline.Config
import SourceOutline.Proofs.Toml.Distinct

/-!
# What a document sets

A document is `Acceptable` if all its sections and keys mean something, and each value is one that
its `Setting` can have. A configuration `Follows` a document if it has the values that this gives,
and its own defaults where none is given.

A section that a document does not have is read like one without members (`Table.getOr_inner`), so
each setting is read on its own: it is given a value, which is the only one of its key, or it keeps
its default (`Config.Settles`).

**Main results**: a document whose sections are tables makes a configuration exactly if it is
acceptable (`Config.exists_ofTable?_iff`), and then the one that follows it
(`Config.ofTable?_eq_some_iff`).
-/

namespace SourceOutline

open Toml

/-! ### Settings and their values -/

/-- The settings. -/
inductive Setting where
  | pretty
  | indent
  | exclude
  | workers
  | port
  deriving Repr, DecidableEq

namespace Setting

/-- The section that a setting is in. -/
def place : Setting → String
  | pretty | indent => "output"
  | exclude | workers => "scan"
  | port => "server"

/-- The key of a setting in its section. -/
def key : Setting → String
  | pretty => "pretty"
  | indent => "indent"
  | exclude => "exclude"
  | workers => "workers"
  | port => "port"

/-- Whether a setting can have a value. -/
def Accepts : Setting → Value → Prop
  | pretty, value => ∃ flag, value = .boolean flag
  | indent, value | workers, value => ∃ n : Nat, value = .integer n
  | exclude, value => ∃ names : List String, value = .array (names.map .string)
  | port, value => ∃ n : Nat, n ≤ 65535 ∧ value = .integer n

end Setting

/-- The value of a setting. -/
def Config.value (config : Config) : Setting → Value
  | .pretty => .boolean config.output.pretty
  | .indent => .integer config.output.indent
  | .exclude => .array (config.scan.exclude.map .string)
  | .workers => .integer config.scan.workers
  | .port => .integer config.server.port

/-! ### Values that are read -/

namespace Toml.Value

variable {value : Value}

private theorem boolean?_eq_some_iff {flag : Bool} :
    value.boolean? = some flag ↔ value = .boolean flag := by
  cases value <;> simp [boolean?]

private theorem natural?_eq_some_iff {n : Nat} : value.natural? = some n ↔ value = .integer n := by
  match value with
  | .integer (.ofNat m) =>
    simp only [natural?, Option.some.injEq, integer.injEq, Int.ofNat_eq_natCast]
    exact Int.natCast_inj.symm
  | .integer (.negSucc m) => simp [natural?]
  | .string _ | .float _ | .boolean _ | .datetime _ | .array _ | .table _ => simp [natural?]

private theorem port?_eq_some_iff {n : Nat} :
    value.port? = some n ↔ n ≤ 65535 ∧ value = .integer n := by
  have hsize : ∀ m : Nat, m < UInt16.size ↔ m ≤ 65535 := fun _ => Nat.lt_succ_iff
  simp only [port?, Option.bind_eq_bind, Option.bind_eq_some_iff, natural?_eq_some_iff, hsize]
  constructor
  · rintro ⟨m, rfl, h⟩
    split at h
    · next hle => cases h; exact ⟨hle, rfl⟩
    · cases h
  · rintro ⟨hle, rfl⟩
    exact ⟨n, rfl, if_pos hle⟩

private theorem mapM_string?_eq_some_iff {items : List Value} {names : List String} :
    items.mapM string? = some names ↔ items = names.map string := by
  induction items generalizing names with
  | nil => cases names <;> simp
  | cons item items ih =>
    rw [List.mapM_cons]
    cases names with
    | nil => cases item <;> simp [string?, Option.bind_eq_some_iff]
    | cons name names => cases item <;> simp [string?, Option.bind_eq_some_iff, ih, and_left_comm]

private theorem strings?_eq_some_iff {names : List String} :
    value.strings? = some names ↔ value = .array (names.map .string) := by
  cases value <;> simp [strings?, mapM_string?_eq_some_iff]

end Toml.Value

/-- Whether a setting is read from the values that it can have, as what it is written as. -/
structure Setting.IsRead {α : Type} (setting : Setting) (read? : Value → Option α)
    (write : α → Value) : Prop where
  injective : Function.Injective write
  read?_eq_some_iff : ∀ value result,
    read? value = some result ↔ setting.Accepts value ∧ value = write result
  exists_write : ∀ value, setting.Accepts value → ∃ result, value = write result

namespace Setting

private theorem isRead_pretty : pretty.IsRead Value.boolean? .boolean where
  injective _ _ h := Value.boolean.inj h
  read?_eq_some_iff value flag := by
    rw [Value.boolean?_eq_some_iff]
    exact ⟨fun h => ⟨⟨flag, h⟩, h⟩, And.right⟩
  exists_write _ h := h

private theorem integer_injective : Function.Injective fun n : Nat => Value.integer n :=
  fun _ _ h => Int.natCast_inj.mp (Value.integer.inj h)

private theorem isRead_natural {setting : Setting}
    (h : ∀ value, setting.Accepts value ↔ ∃ n : Nat, value = .integer n) :
    setting.IsRead Value.natural? fun n => .integer n where
  injective := integer_injective
  read?_eq_some_iff value n := by
    rw [Value.natural?_eq_some_iff, h]
    exact ⟨fun h => ⟨⟨n, h⟩, h⟩, And.right⟩
  exists_write value := (h value).mp

private theorem isRead_exclude :
    exclude.IsRead Value.strings? fun names => .array (names.map .string) where
  injective _ _ h := (List.map_inj_right fun _ _ => Value.string.inj).mp (Value.array.inj h)
  read?_eq_some_iff value names := by
    rw [Value.strings?_eq_some_iff]
    exact ⟨fun h => ⟨⟨names, h⟩, h⟩, And.right⟩
  exists_write _ h := h

private theorem isRead_port : port.IsRead Value.port? fun n => .integer n where
  injective := integer_injective
  read?_eq_some_iff value n := by
    rw [Value.port?_eq_some_iff]
    constructor
    · rintro ⟨hle, rfl⟩
      exact ⟨⟨n, hle, rfl⟩, rfl⟩
    · rintro ⟨⟨m, hle, rfl⟩, h⟩
      exact ⟨integer_injective h ▸ hle, h⟩
  exists_write _ := fun ⟨n, _, h⟩ => ⟨n, h⟩

end Setting

/-! ### What a document says -/

namespace Toml.Table

variable {document : Table} {place key : String} {value : Value}

/-- Whether a document gives a value to a key in a section. -/
def Gives (document : Table) (place key : String) (value : Value) : Prop :=
  ∃ members, (place, .table members) ∈ document ∧ (key, value) ∈ members

/-- Whether all sections of a document are written as tables. -/
def HasTables (document : Table) : Prop :=
  ∀ place ∈ ["output", "scan", "server"], ∀ value, (place, value) ∈ document →
    ∃ members, value = .table members

/-- Whether a document has no sections and no keys but those that mean something, and gives no
values but those that are possible. -/
structure Acceptable (document : Table) : Prop where
  places : ∀ member ∈ document, member.1 ∈ ["output", "scan", "server"]
  keys : ∀ place key value, document.Gives place key value →
    ∃ setting : Setting, setting.place = place ∧ setting.key = key
  values : ∀ (setting : Setting) value, document.Gives setting.place setting.key value →
    setting.Accepts value

/-- The members of a section; there are none where the document does not have it. -/
private def inner (document : Table) (place : String) : Table :=
  match document.find? place with
  | some (.table members) => members
  | _ => []

private theorem mem_inner_iff (hkeys : (document.map (·.1)).Nodup) :
    (key, value) ∈ document.inner place ↔ document.Gives place key value := by
  rw [inner]
  split
  · next members hfind =>
    constructor
    · intro h
      exact ⟨members, (find?_eq_some_iff hkeys).mp hfind, h⟩
    · rintro ⟨members', hmembers, h⟩
      rw [← find?_eq_some_iff hkeys, hfind] at hmembers
      cases hmembers
      exact h
  · next hnone =>
    constructor
    · intro h
      exact absurd h List.not_mem_nil
    · rintro ⟨members, hmembers, -⟩
      exact absurd ((find?_eq_some_iff hkeys).mpr hmembers) (hnone members)

private theorem nodup_inner (h : (Value.table document).Distinct) (place : String) :
    ((document.inner place).map (·.1)).Nodup := by
  rw [inner]
  split
  · next members hfind =>
    obtain ⟨hkeys, hvalues⟩ := Value.distinct_table_iff.mp h
    have hmember := (find?_eq_some_iff hkeys).mp hfind
    exact (Value.distinct_table_iff.mp (hvalues _ hmember)).1
  · exact .nil

/-- A section that the document does not have is read as one without members. -/
private theorem getOr_inner {α : Type} {default : α} (read? : Value → Option α)
    (hkeys : (document.map (·.1)).Nodup) (hdefault : read? (.table []) = some default)
    (htable : ∀ value, (place, value) ∈ document → ∃ members, value = .table members) :
    document.getOr place default read? = read? (.table (document.inner place)) := by
  rw [getOr, inner]
  cases hfind : document.find? place with
  | none => exact hdefault.symm
  | some value =>
    obtain ⟨members, rfl⟩ := htable value ((find?_eq_some_iff hkeys).mp hfind)
    rfl

/-! ### What is read of a setting -/

variable {α : Type} {result : α} {read? : Value → Option α} {write : α → Value}
  {setting : Setting}

/-- What is read of a setting is the value that the document gives, or the default. -/
private theorem getOr_inner_eq_some_iff (default : α) (hread : setting.IsRead read? write)
    (h : (Value.table document).Distinct) :
    (document.inner setting.place).getOr setting.key default read? = some result ↔
      (∀ value, document.Gives setting.place setting.key value →
        setting.Accepts value ∧ write result = value) ∧
      ((∀ value, ¬ document.Gives setting.place setting.key value) →
        write result = write default) := by
  have hkeys := (Value.distinct_table_iff.mp h).1
  have hinner := nodup_inner h setting.place
  simp only [← mem_inner_iff hkeys]
  rw [getOr]
  cases hfind : (document.inner setting.place).find? setting.key with
  | none =>
    have hnone := find?_eq_none_iff.mp hfind
    simp [hnone, hread.injective.eq_iff, eq_comm]
  | some value =>
    -- The one value of the key is what is read.
    have hmember := (find?_eq_some_iff hinner).mp hfind
    refine (hread.read?_eq_some_iff value result).trans ⟨fun hvalue => ⟨fun other hother => ?_, ?_⟩,
      fun hvalue => ?_⟩
    · rw [← find?_eq_some_iff hinner, hfind] at hother
      obtain rfl := Option.some.inj hother
      exact ⟨hvalue.1, hvalue.2.symm⟩
    · exact fun hnone => absurd hmember (hnone value)
    · obtain ⟨haccepts, hwrite⟩ := hvalue.1 value hmember
      exact ⟨haccepts, hwrite.symm⟩

/-- Something is read of a setting unless the document gives a value that is not possible. -/
private theorem exists_getOr_inner (default : α) (hread : setting.IsRead read? write)
    (h : (Value.table document).Distinct)
    (hvalues : ∀ value, document.Gives setting.place setting.key value → setting.Accepts value) :
    ∃ result, (document.inner setting.place).getOr setting.key default read? = some result := by
  have hkeys := (Value.distinct_table_iff.mp h).1
  rw [getOr]
  cases hfind : (document.inner setting.place).find? setting.key with
  | none => exact ⟨default, rfl⟩
  | some value =>
    have hmember := (find?_eq_some_iff (nodup_inner h setting.place)).mp hfind
    have haccepts := hvalues value ((mem_inner_iff hkeys).mp hmember)
    obtain ⟨result, hwrite⟩ := hread.exists_write value haccepts
    exact ⟨result, (hread.read?_eq_some_iff value result).mpr ⟨haccepts, hwrite⟩⟩

end Toml.Table

/-! ### Sections -/

private theorem section?_eq_some_iff {keys : List String} {members table : Table} :
    (Value.table members).section? keys = some table ↔
      (∀ member ∈ members, member.1 ∈ keys) ∧ members = table := by
  simp [Value.section?]

private theorem OutputConfig.ofToml?_eq_some_iff {members : Table} {output : OutputConfig} :
    ofToml? (.table members) = some output ↔
      (∀ member ∈ members, member.1 ∈ ["pretty", "indent"]) ∧
        members.getOr "pretty" true Value.boolean? = some output.pretty ∧
        members.getOr "indent" 4 Value.natural? = some output.indent := by
  obtain ⟨pretty, indent⟩ := output
  simp [ofToml?, Option.bind_eq_some_iff, section?_eq_some_iff, and_assoc]

private theorem ScanConfig.ofToml?_eq_some_iff {members : Table} {scan : ScanConfig} :
    ofToml? (.table members) = some scan ↔
      (∀ member ∈ members, member.1 ∈ ["exclude", "workers"]) ∧
        members.getOr "exclude" ({} : ScanConfig).exclude Value.strings? = some scan.exclude ∧
        members.getOr "workers" 0 Value.natural? = some scan.workers := by
  obtain ⟨exclude, workers⟩ := scan
  simp [ofToml?, Option.bind_eq_some_iff, section?_eq_some_iff, and_assoc]

private theorem ServerConfig.ofToml?_eq_some_iff {members : Table} {server : ServerConfig} :
    ofToml? (.table members) = some server ↔
      (∀ member ∈ members, member.1 ∈ ["port"]) ∧
        members.getOr "port" 7878 Value.port? = some server.port := by
  obtain ⟨port⟩ := server
  simp [ofToml?, Option.bind_eq_some_iff, section?_eq_some_iff, and_assoc]

namespace Config

variable {document : Table} {config : Config}

/-- A configuration is made of the sections, as if each were there. -/
private theorem ofTable?_eq_some_iff_inner (hkeys : (document.map (·.1)).Nodup)
    (htables : document.HasTables) :
    ofTable? document = some config ↔
      (∀ member ∈ document, member.1 ∈ ["output", "scan", "server"]) ∧
        OutputConfig.ofToml? (.table (document.inner "output")) = some config.output ∧
        ScanConfig.ofToml? (.table (document.inner "scan")) = some config.scan ∧
        ServerConfig.ofToml? (.table (document.inner "server")) = some config.server := by
  have houtput := Table.getOr_inner OutputConfig.ofToml? hkeys rfl (htables "output" (by simp))
  have hscan := Table.getOr_inner ScanConfig.ofToml? hkeys rfl (htables "scan" (by simp))
  have hserver := Table.getOr_inner ServerConfig.ofToml? hkeys rfl (htables "server" (by simp))
  obtain ⟨output, scan, server⟩ := config
  simp only [ofTable?, Option.bind_eq_bind, Option.bind_eq_some_iff, section?_eq_some_iff,
    Option.pure_def, Option.some.injEq, mk.injEq]
  constructor
  · rintro ⟨_, ⟨hplaces, rfl⟩, _, h, _, h', _, h'', rfl, rfl, rfl⟩
    exact ⟨hplaces, houtput ▸ h, hscan ▸ h', hserver ▸ h''⟩
  · rintro ⟨hplaces, h, h', h''⟩
    exact ⟨_, ⟨hplaces, rfl⟩, _, houtput ▸ h, _, hscan ▸ h', _, hserver ▸ h'', rfl, rfl, rfl⟩

/-- Whether the members of the sections have keys that mean something. -/
private def HasKnownKeys (document : Table) : Prop :=
  (∀ member ∈ document.inner "output", member.1 ∈ ["pretty", "indent"]) ∧
    (∀ member ∈ document.inner "scan", member.1 ∈ ["exclude", "workers"]) ∧
    ∀ member ∈ document.inner "server", member.1 ∈ ["port"]

private theorem hasKnownKeys_iff (hkeys : (document.map (·.1)).Nodup)
    (hplaces : ∀ member ∈ document, member.1 ∈ ["output", "scan", "server"]) :
    HasKnownKeys document ↔ ∀ place key value, document.Gives place key value →
      ∃ setting : Setting, setting.place = place ∧ setting.key = key := by
  constructor
  · rintro ⟨houtput, hscan, hserver⟩ place key value hgives
    have hinner := (Table.mem_inner_iff hkeys).mpr hgives
    obtain ⟨members, hmembers, -⟩ := hgives
    have hplace := hplaces _ hmembers
    simp only [List.mem_cons, List.not_mem_nil, or_false] at hplace houtput hscan hserver
    rcases hplace with rfl | rfl | rfl
    · rcases houtput _ hinner with rfl | rfl
      · exact ⟨.pretty, rfl, rfl⟩
      · exact ⟨.indent, rfl, rfl⟩
    · rcases hscan _ hinner with rfl | rfl
      · exact ⟨.exclude, rfl, rfl⟩
      · exact ⟨.workers, rfl, rfl⟩
    · obtain rfl := hserver _ hinner
      exact ⟨.port, rfl, rfl⟩
  · intro h
    have hknown : ∀ place, ∀ member ∈ document.inner place,
        ∃ setting : Setting, setting.place = place ∧ setting.key = member.1 :=
      fun place member hmember => h place _ member.2 ((Table.mem_inner_iff hkeys).mp hmember)
    refine ⟨?_, ?_, ?_⟩
    all_goals
      intro member hmember
      obtain ⟨setting, hplace, hkey⟩ := hknown _ member hmember
      rw [← hkey]
      cases setting <;> simp_all [Setting.place, Setting.key]

/-- A configuration is made of the settings, each on its own. -/
private theorem ofTable?_eq_some_iff_getOr (hkeys : (document.map (·.1)).Nodup)
    (htables : document.HasTables) :
    ofTable? document = some config ↔
      (∀ member ∈ document, member.1 ∈ ["output", "scan", "server"]) ∧ HasKnownKeys document ∧
        (document.inner "output").getOr "pretty" true Value.boolean? = some config.output.pretty ∧
        (document.inner "output").getOr "indent" 4 Value.natural? = some config.output.indent ∧
        (document.inner "scan").getOr "exclude" ({} : ScanConfig).exclude Value.strings? =
          some config.scan.exclude ∧
        (document.inner "scan").getOr "workers" 0 Value.natural? = some config.scan.workers ∧
        (document.inner "server").getOr "port" 7878 Value.port? = some config.server.port := by
  rw [ofTable?_eq_some_iff_inner hkeys htables, OutputConfig.ofToml?_eq_some_iff,
    ScanConfig.ofToml?_eq_some_iff, ServerConfig.ofToml?_eq_some_iff, HasKnownKeys]
  constructor
  · rintro ⟨hplaces, ⟨houtput, hpretty, hindent⟩, ⟨hscan, hexclude, hworkers⟩, hserver, hport⟩
    exact ⟨hplaces, ⟨houtput, hscan, hserver⟩, hpretty, hindent, hexclude, hworkers, hport⟩
  · rintro ⟨hplaces, ⟨houtput, hscan, hserver⟩, hpretty, hindent, hexclude, hworkers, hport⟩
    exact ⟨hplaces, ⟨houtput, hpretty, hindent⟩, ⟨hscan, hexclude, hworkers⟩, hserver, hport⟩

/-- Whether a configuration has the values that a document gives, and its defaults elsewhere. -/
structure Follows (config : Config) (document : Table) : Prop where
  given : ∀ (setting : Setting) value, document.Gives setting.place setting.key value →
    config.value setting = value
  default : ∀ setting : Setting, (∀ value, ¬ document.Gives setting.place setting.key value) →
    config.value setting = ({} : Config).value setting

theorem follows_iff : config.Follows document ↔
    (∀ (setting : Setting) value, document.Gives setting.place setting.key value →
      config.value setting = value) ∧
    ∀ setting : Setting, (∀ value, ¬ document.Gives setting.place setting.key value) →
      config.value setting = ({} : Config).value setting :=
  ⟨fun h => ⟨h.given, h.default⟩, fun h => ⟨h.1, h.2⟩⟩

/-- Whether a setting has the value that a document gives, which is possible, or its default. -/
private def Settles (config : Config) (document : Table) (setting : Setting) : Prop :=
  (∀ value, document.Gives setting.place setting.key value →
    setting.Accepts value ∧ config.value setting = value) ∧
  ((∀ value, ¬ document.Gives setting.place setting.key value) →
    config.value setting = ({} : Config).value setting)

private theorem forall_settles_iff :
    (∀ setting, config.Settles document setting) ↔
      (∀ (setting : Setting) value, document.Gives setting.place setting.key value →
        setting.Accepts value) ∧ config.Follows document := by
  constructor
  · intro h
    exact ⟨fun setting value hvalue => ((h setting).1 value hvalue).1,
      fun setting value hvalue => ((h setting).1 value hvalue).2, fun setting => (h setting).2⟩
  · rintro ⟨hvalues, hfollows⟩ setting
    exact ⟨fun value hvalue => ⟨hvalues setting value hvalue, hfollows.given setting value hvalue⟩,
      hfollows.default setting⟩

/-- **A document makes the configuration that follows it**, if it is acceptable, and else none. -/
theorem ofTable?_eq_some_iff (h : (Value.table document).Distinct) (htables : document.HasTables) :
    ofTable? document = some config ↔ document.Acceptable ∧ config.Follows document := by
  have hkeys := (Value.distinct_table_iff.mp h).1
  have hpretty : _ ↔ config.Settles document .pretty :=
    Table.getOr_inner_eq_some_iff true Setting.isRead_pretty h
  have hindent : _ ↔ config.Settles document .indent :=
    Table.getOr_inner_eq_some_iff 4 (Setting.isRead_natural fun _ => .rfl) h
  have hexclude : _ ↔ config.Settles document .exclude :=
    Table.getOr_inner_eq_some_iff ({} : ScanConfig).exclude Setting.isRead_exclude h
  have hworkers : _ ↔ config.Settles document .workers :=
    Table.getOr_inner_eq_some_iff 0 (Setting.isRead_natural fun _ => .rfl) h
  have hport : _ ↔ config.Settles document .port :=
    Table.getOr_inner_eq_some_iff 7878 Setting.isRead_port h
  rw [ofTable?_eq_some_iff_getOr hkeys htables]
  constructor
  · rintro ⟨hplaces, hknown, hpretty', hindent', hexclude', hworkers', hport'⟩
    have hsettles : ∀ setting, config.Settles document setting
      | .pretty => hpretty.mp hpretty'
      | .indent => hindent.mp hindent'
      | .exclude => hexclude.mp hexclude'
      | .workers => hworkers.mp hworkers'
      | .port => hport.mp hport'
    obtain ⟨hvalues, hfollows⟩ := forall_settles_iff.mp hsettles
    exact ⟨⟨hplaces, (hasKnownKeys_iff hkeys hplaces).mp hknown, hvalues⟩, hfollows⟩
  · rintro ⟨⟨hplaces, hknown, hvalues⟩, hfollows⟩
    have hsettles := forall_settles_iff.mpr ⟨hvalues, hfollows⟩
    exact ⟨hplaces, (hasKnownKeys_iff hkeys hplaces).mpr hknown, hpretty.mpr (hsettles .pretty),
      hindent.mpr (hsettles .indent), hexclude.mpr (hsettles .exclude),
      hworkers.mpr (hsettles .workers), hport.mpr (hsettles .port)⟩

/-- **A document makes a configuration exactly if it is acceptable.** -/
theorem exists_ofTable?_iff (h : (Value.table document).Distinct) (htables : document.HasTables) :
    (∃ config, ofTable? document = some config) ↔ document.Acceptable := by
  have hkeys := (Value.distinct_table_iff.mp h).1
  constructor
  · rintro ⟨config, hconfig⟩
    exact ((ofTable?_eq_some_iff h htables).mp hconfig).1
  · rintro ⟨hplaces, hknown, hvalues⟩
    obtain ⟨pretty, hpretty⟩ := Table.exists_getOr_inner true Setting.isRead_pretty h
      (hvalues .pretty)
    obtain ⟨indent, hindent⟩ := Table.exists_getOr_inner 4
      (Setting.isRead_natural fun _ => .rfl) h (hvalues .indent)
    obtain ⟨exclude, hexclude⟩ := Table.exists_getOr_inner ({} : ScanConfig).exclude
      Setting.isRead_exclude h (hvalues .exclude)
    obtain ⟨workers, hworkers⟩ := Table.exists_getOr_inner 0
      (Setting.isRead_natural fun _ => .rfl) h (hvalues .workers)
    obtain ⟨port, hport⟩ := Table.exists_getOr_inner 7878 Setting.isRead_port h
      (hvalues .port)
    refine ⟨⟨⟨pretty, indent⟩, ⟨exclude, workers⟩, ⟨port⟩⟩, ?_⟩
    rw [ofTable?_eq_some_iff_getOr hkeys htables]
    exact ⟨hplaces, (hasKnownKeys_iff hkeys hplaces).mpr hknown, hpretty, hindent, hexclude,
      hworkers, hport⟩

end Config

end SourceOutline
