import AdkAaf.Adk.EncryptConfig.Session

/-! Histories of sessions: the first makes the directory, later ones open it again, and each
ends with the header. -/

set_option autoImplicit false

namespace AdkAaf.Adk.EncryptConfig

open Lib Option ConfigFile List

open Lib (charArray cString)

structure Entry where
  name : Bytes
  value : Bytes
  encrypted : Bool
  deriving DecidableEq

/-- `file` is what the last session has left, `entries` what the calls that did not fail have
written. -/
structure Store where
  file : Bytes := []
  session : Option ConfigFile
  closed : Nat := 0
  entries : List Entry

inductive Action where
  | writeConfigFile (name value : Bytes)
  | writeStringPair (name value : Bytes)
  | updateConfigFile (name value : Bytes)
  | writeHeader
  | reopen

namespace Store

variable (services : Services)

def start (image custom md5 version : Bytes) : Store where
  session := some (create services image custom md5 version)
  entries := [⟨key1, md5, false⟩]

def appended (entries : List Entry) (entry : Entry) (written : Bool) : List Entry :=
  if written then entries ++ [entry] else entries

def updated (name value : Bytes) (entry : Entry) : Entry :=
  if entry.name = name then { entry with value := value } else entry

def step (store : Store) : Action → Option Store
  | .writeConfigFile name value =>
    store.session.map fun config =>
      let (written, config) := config.writeConfigFile services name value
      { store with
        session := some config
        entries := appended store.entries ⟨name, value, true⟩ written }
  | .writeStringPair name value =>
    store.session.map fun config =>
      let (written, config) := config.writeStringPair name value
      { store with
        session := some config
        entries := appended store.entries ⟨name, value, false⟩ written }
  | .updateConfigFile name value =>
    store.session.map fun config =>
      let (code, config) := config.updateConfigFile services name value
      { store with
        session := some config
        entries := if code = 0 then store.entries.map (updated name value) else store.entries }
  | .writeHeader =>
    store.session.map fun config =>
      { store with
        file := config.writeHeader.outFile.bytes
        session := none
        closed := store.closed + 1 }
  | .reopen =>
    match store.session with
    | some _ => none
    | none => some { store with session := some (ConfigFile.opened services store.file) }

/-- A new record is written in the first session only, and keeps the file below 4 GiB. -/
def Appendable (store : Store) (name stored : Bytes) : Prop :=
  ∀ config ∈ store.session, config.findConfigFile name = none →
    store.closed = 0 ∧ config.outFile.bytes.length + 364 + stored.length < 2 ^ 32

/-- Names and updates are those of the interface; further, records are appended where they
are found again, and the first session does not leave what reads as a header. -/
def Allowed (store : Store) : Action → Prop
  | .writeConfigFile name value =>
    (name.length < 256 ∧ 0 ∉ name) ∧
      ∀ config ∈ store.session,
        store.Appendable name (services.encryptStr config.aesKey value)
  | .writeStringPair name value =>
    (name.length < 256 ∧ 0 ∉ name) ∧ store.Appendable name value
  | .updateConfigFile name _ => ∀ entry ∈ store.entries, entry.name = name → entry.encrypted = true
  | .writeHeader =>
    ∀ config ∈ store.session, store.closed = 0 →
      ¬ EndsInHeader config.outFile.bytes ∧
        config.outFile.bytes.length + headerLength < 2 ^ 32
  | .reopen => True

instance (store : Store) (name stored : Bytes) : Decidable (store.Appendable name stored) :=
  inferInstanceAs (Decidable (∀ config ∈ store.session, _ → _))

instance (store : Store) : ∀ action, Decidable (store.Allowed services action)
  | .writeConfigFile _ _ =>
    inferInstanceAs (Decidable (_ ∧ ∀ config ∈ store.session, Appendable _ _ _))
  | .writeStringPair _ _ => inferInstanceAs (Decidable (_ ∧ Appendable _ _ _))
  | .updateConfigFile _ _ => inferInstanceAs (Decidable (∀ entry ∈ store.entries, _ → _))
  | .writeHeader => inferInstanceAs (Decidable (∀ config ∈ store.session, _ → _))
  | .reopen => inferInstanceAs (Decidable True)

def bytes (store : Store) : Bytes :=
  match store.session with
  | some config => config.outFile.bytes
  | none => store.file

/-- `ReadConfigFile`, or `ReadValue` of a value that is not encrypted. -/
def readEntry (config : ConfigFile) (entry : Entry) : Bytes :=
  if entry.encrypted then config.readConfigFile services entry.name
  else config.readValue entry.name

structure Safe (image : Bytes) (store : Store) : Prop where
  image : store.bytes.take image.length = image
  /-- Between sessions, the names that were written are found, and no others. -/
  names : store.session = none →
    (ConfigFile.opened services store.file).fileList.map (cString ·.fileName) =
      store.entries.map Entry.name
  values : store.session = none → ∀ entry ∈ store.entries,
    readEntry services (ConfigFile.opened services store.file) entry = entry.value
  refused : ∀ config ∈ store.session, ∀ name value,
    (config.updateConfigFile services name value).1 ≠ 0 →
      (config.updateConfigFile services name value).2 = config

structure Stores (key : Bytes) (entry : Entry) (record : Record) : Prop where
  name : record.name = entry.name
  plain : entry.encrypted = false → record.stored = entry.value
  cipher : entry.encrypted = true →
    record.stored ≠ [] ∧ services.decryptStr key record.stored = entry.value

structure Valid (identity : Identity) (md5 : Bytes) (store : Store) (records : List Record) :
    Prop where
  size : store.entries.length = records.length
  stored : ∀ (index : Nat) entry record, store.entries[index]? = some entry →
    records[index]? = some record →
    Stores services (generateKey services identity.custom md5) entry record
  first : ∃ capacity, records[0]? = some ⟨key1, md5, capacity⟩
  key : store.entries[0]? = some ⟨key1, md5, false⟩
  opened : ∀ config, store.session = some config →
    config.aesKey = generateKey services identity.custom md5 ∧
      ∃ tail, config.Holds identity records tail ∧
        tail = if store.closed = 0 then [] else (ConfigFile.fileHeader identity records).encode
  rests : store.session = none →
    store.file =
        identity.image ++ (area records ++ (ConfigFile.fileHeader identity records).encode) ∧
      (∀ record ∈ records, record.WellFormed) ∧ (records.map Record.name).Nodup ∧
      identity.image.length + (area records).length + headerLength < 2 ^ 32 ∧ store.closed ≠ 0

section Invariant

variable {services} {identity : Identity} {md5 : Bytes} {store next : Store}
variable {records : List Record} {config : ConfigFile} {name value : Bytes}

section

variable (valid : store.Valid services identity md5 records)
include valid

theorem Valid.names : store.entries.map Entry.name = records.map Record.name := by
  apply ext_getElem?
  intro i
  rw [List.getElem?_map, List.getElem?_map]
  cases at_ : store.entries[i]? with
  | none =>
    have above := List.getElem?_eq_none_iff.mp at_
    rw [valid.size] at above
    rw [List.getElem?_eq_none above]
    rfl
  | some entry =>
    have below := (List.getElem?_eq_some_iff.mp at_).1
    rw [valid.size] at below
    have at' := List.getElem?_eq_getElem below
    rw [at', map_some, map_some, (valid.stored i entry _ at_ at').name]

theorem Valid.listed : records ≠ [] := by
  obtain ⟨capacity, at_⟩ := valid.first
  exact ne_nil_of_mem (mem_of_getElem? at_)

theorem Valid.append {entry : Entry} {record : Record} (opened : store.session = some config)
    (fresh : store.closed = 0) {after : ConfigFile}
    (holds : after.Holds identity (records ++ [record]) []) (key : after.aesKey = config.aesKey)
    (stores : Stores services (generateKey services identity.custom md5) entry record) :
    Valid services identity md5
      { store with session := some after, entries := store.entries ++ [entry] }
      (records ++ [record]) where
  size := by
    rw [List.length_append, List.length_append, valid.size]
    rfl
  stored j other row at_ at' := by
    by_cases before : j < records.length
    · rw [List.getElem?_append_left (valid.size ▸ before)] at at_
      rw [List.getElem?_append_left before] at at'
      exact valid.stored j other row at_ at'
    · have last := (List.getElem?_eq_some_iff.mp at').1
      rw [List.length_append, List.length_singleton] at last
      have same : j = records.length := Nat.le_antisymm (Nat.le_of_lt_succ last)
        (Nat.le_of_not_lt before)
      rw [same, List.getElem?_concat_length] at at'
      rw [same, ← valid.size, List.getElem?_concat_length] at at_
      rw [← some.inj at_, ← some.inj at']
      exact stores
  first := by
    obtain ⟨capacity, at_⟩ := valid.first
    have below := (List.getElem?_eq_some_iff.mp at_).1
    exact ⟨capacity, (List.getElem?_append_left below).trans at_⟩
  key := by
    have below := (List.getElem?_eq_some_iff.mp valid.key).1
    exact (List.getElem?_append_left below).trans valid.key
  opened other same := by
    cases same
    exact ⟨key.trans (valid.opened config opened).1, [], holds, (if_pos fresh).symm⟩
  rests none := by cases none

theorem Valid.writeFile (entry : Entry) {stored : Bytes} (opened : store.session = some config)
    (short : entry.name.length < 256) (plain : 0 ∉ entry.name)
    (appendable : store.Appendable entry.name stored)
    (stores : Stores services (generateKey services identity.custom md5) entry
      ⟨entry.name, stored, stored.length.toUInt32 + 100⟩) :
    ∃ records', Valid services identity md5 { store with
          session := some (config.writeFile entry.name stored).2
          entries := appended store.entries entry (config.writeFile entry.name stored).1 }
        records' := by
  obtain ⟨-, tail, holds, rfl⟩ := valid.opened config opened
  cases found : config.findConfigFile entry.name with
  | some j =>
    have refused : config.writeFile entry.name stored = (false, config) := by
      unfold ConfigFile.writeFile
      rw [if_pos (by rw [found]; rfl)]
    rw [refused]
    refine ⟨records, ?_⟩
    cases store
    cases opened
    exact valid
  | none =>
    obtain ⟨fresh, fits⟩ := appendable config (mem_def.mpr opened) found
    rw [if_pos fresh] at holds
    have new : ∀ record ∈ records, record.name ≠ entry.name := by
      rw [holds.findConfigFile, findIdx?_eq_none_iff] at found
      exact fun record mem => of_decide_eq_false (found record mem)
    obtain ⟨written, after, key⟩ := holds.writeFile new short plain fits
    rw [written]
    exact ⟨_, valid.append opened fresh after key stores⟩

end

def Faithful (services : Services) (key : Bytes) : Prop :=
  ∀ value, services.encryptStr key value ≠ [] ∧
    services.decryptStr key (services.encryptStr key value) = value

theorem Valid.updateFile (valid : store.Valid services identity md5 records) {j : Nat}
    {record : Record} {stored : Bytes} (opened : store.session = some config)
    (at_ : records[j]? = some record) (small : stored.length ≤ record.capacity.toNat)
    (encrypted : ∀ entry ∈ store.entries, entry.name = record.name → entry.encrypted = true)
    (cipher : stored ≠ [] ∧
      services.decryptStr (generateKey services identity.custom md5) stored = value) :
    Valid services identity md5 { store with
        session := some (config.updateFile j record.info stored)
        entries := store.entries.map (updated record.name value) }
      (records.set j { record with stored := stored }) := by
  obtain ⟨key, tail, holds, closes⟩ := valid.opened config opened
  have below := (List.getElem?_eq_some_iff.mp at_).1
  -- the key is not encrypted, so that it is not the record that is updated
  have other : key1 ≠ record.name := by
    intro same
    have impossible := encrypted _ (mem_of_getElem? valid.key) same
    cases impossible
  have behind : j ≠ 0 := by
    rintro rfl
    obtain ⟨capacity, first⟩ := valid.first
    rw [at_, some.injEq] at first
    exact other (congrArg Record.name first).symm
  exact {
    size := by rw [length_map, length_set, valid.size]
    stored := fun place entry row found found' => by
      rw [List.getElem?_map] at found
      obtain ⟨before, was, rfl⟩ := map_eq_some_iff.mp found
      rw [List.getElem?_set] at found'
      by_cases same : j = place
      · subst same
        rw [if_pos rfl, if_pos below, some.injEq] at found'
        have stores := valid.stored j before record was at_
        rw [updated, if_pos stores.name.symm, ← found']
        have hidden := encrypted before (mem_of_getElem? was) stores.name.symm
        refine ⟨stores.name, fun open_ => ?_, fun _ => cipher⟩
        have impossible : before.encrypted = false := open_
        rw [hidden] at impossible
        cases impossible
      · rw [if_neg same] at found'
        have stores := valid.stored place before row was found'
        have apart : before.name ≠ record.name := by
          intro equal
          have first : (records.map Record.name)[place]? = some record.name := by
            rw [List.getElem?_map, found', map_some, stores.name, equal]
          have second : (records.map Record.name)[j]? = some record.name := by
            rw [List.getElem?_map, at_, map_some]
          have bound := (List.getElem?_eq_some_iff.mp second).1
          exact same ((List.getElem?_inj bound holds.distinct).mp (second.trans first.symm))
        rw [updated, if_neg apart]
        exact stores
    first := by
      obtain ⟨capacity, first⟩ := valid.first
      exact ⟨capacity, by rw [List.getElem?_set, if_neg behind, first]⟩
    key := by
      rw [List.getElem?_map, valid.key, map_some, updated, if_neg other]
    opened := fun after same => by
      cases same
      refine ⟨key, tail, holds.updateFile at_ small, ?_⟩
      rw [closes]
      unfold ConfigFile.fileHeader
      rw [length_set]
    rests := fun none => by cases none }

theorem Valid.updateConfigFile (valid : store.Valid services identity md5 records)
    (faithful : Faithful services (generateKey services identity.custom md5))
    (present : generateKey services identity.custom md5 ≠ []) (opened : store.session = some config)
    (encrypted : ∀ entry ∈ store.entries, entry.name = name → entry.encrypted = true) :
    ∃ records', Valid services identity md5 { store with
          session := some (config.updateConfigFile services name value).2
          entries :=
            if (config.updateConfigFile services name value).1 = 0 then
              store.entries.map (updated name value)
            else store.entries }
        records' := by
  obtain ⟨key, tail, holds, -⟩ := valid.opened config opened
  have unchanged : ∀ code, code ≠ 0 → config.updateConfigFile services name value = (code, config) →
      ∃ records', Valid services identity md5 { store with
            session := some (config.updateConfigFile services name value).2
            entries :=
              if (config.updateConfigFile services name value).1 = 0 then
                store.entries.map (updated name value)
              else store.entries }
          records' := by
    intro code failed result
    rw [result]
    rw [if_neg failed]
    refine ⟨records, ?_⟩
    cases store
    cases opened
    exact valid
  cases found : config.findConfigFile name with
  | none =>
    refine unchanged 1 (by decide) ?_
    unfold ConfigFile.updateConfigFile
    rw [found]
  | some j =>
    obtain ⟨record, at_, rfl⟩ := holds.record_of_found found
    obtain ⟨nonempty, inverse⟩ := faithful value
    rw [← key] at nonempty inverse
    have result := holds.updateConfigFile services at_ (key ▸ present) nonempty
    split at result
    · exact unchanged 4 (by decide) result
    next small =>
      rw [result]
      have cipher : services.decryptStr (generateKey services identity.custom md5)
          (services.encryptStr config.aesKey value) = value := by
        rw [← key]
        exact inverse
      exact ⟨_, valid.updateFile opened at_ (Nat.le_of_not_lt small) encrypted ⟨nonempty, cipher⟩⟩

theorem start_valid (services : Services) (sized : identity.Sized)
    (headless : ¬ EndsInHeader identity.image) (small : identity.image.length < 2 ^ 31)
    (whole : md5.length = 256) :
    (start services identity.image identity.custom md5 identity.version).Valid services identity md5
      [⟨key1, md5, 356⟩] := by
  obtain ⟨holds, key⟩ := holds_create services sized headless small whole
  exact {
    size := rfl
    stored := fun i entry record at_ at' => by
      cases i with
      | zero =>
        rw [← some.inj at_, ← some.inj at']
        exact ⟨rfl, fun _ => rfl, fun hidden => by cases hidden⟩
      | succ i => cases at_
    first := ⟨356, rfl⟩
    key := rfl
    opened := fun config same => by
      cases same
      exact ⟨key, [], holds, rfl⟩
    rests := fun none => by cases none }

section

variable (valid : store.Valid services identity md5 records)
include valid

theorem Valid.writeHeader (opened : store.session = some config)
    (may : store.closed = 0 → ¬ EndsInHeader config.outFile.bytes ∧
      config.outFile.bytes.length + headerLength < 2 ^ 32) :
    Valid services identity md5 { store with
        file := config.writeHeader.outFile.bytes
        session := none
        closed := store.closed + 1 }
      records := by
  obtain ⟨-, tail, holds, closes⟩ := valid.opened config opened
  have ends : tail = (ConfigFile.fileHeader identity records).encode ∨
      (tail = [] ∧ ¬ EndsInHeader config.outFile.bytes) := by
    split at closes
    next fresh => exact .inr ⟨closes, (may fresh).1⟩
    · exact .inl closes
  have fits : identity.image.length + (area records).length + headerLength < 2 ^ 32 := by
    by_cases fresh : store.closed = 0
    · have below := (may fresh).2
      rw [holds.bytes, List.length_append, List.length_append] at below
      omega
    · have below := holds.fits
      rw [closes, if_neg fresh, length_fileHeader] at below
      exact below
  have file := holds.writeHeader valid.listed ends fits
  exact {
    __ := valid
    opened := fun config impossible => by cases impossible
    rests := fun _ => ⟨file, holds.formed, holds.distinct, fits, Nat.succ_ne_zero _⟩ }

theorem Valid.reopened (sized : identity.Sized) (whole : md5.length = 256)
    (rests : store.session = none) :
    (ConfigFile.opened services store.file).aesKey = generateKey services identity.custom md5 ∧
      (ConfigFile.opened services store.file).Holds identity records
        (ConfigFile.fileHeader identity records).encode := by
  obtain ⟨closed, formed, distinct, fits, -⟩ := valid.rests rests
  obtain ⟨holds, key⟩ := holds_opened services closed formed distinct sized fits valid.first whole
  exact ⟨key, holds⟩

theorem Valid.step (sized : identity.Sized) (whole : md5.length = 256)
    (faithful : Faithful services (generateKey services identity.custom md5)) {action : Action}
    (may : store.Allowed services action) (went : store.step services action = some next) :
    ∃ records', next.Valid services identity md5 records' := by
  have present := generateKey_ne_nil services identity.custom whole
  cases action with
  | writeConfigFile name value =>
    obtain ⟨config, opened, rfl⟩ := map_eq_some_iff.mp went
    obtain ⟨⟨short, plain⟩, appendable⟩ := may
    have key := (valid.opened config opened).1
    obtain ⟨nonempty, inverse⟩ := faithful value
    rw [← key] at nonempty inverse present
    have written : config.writeConfigFile services name value =
        config.writeFile name (services.encryptStr config.aesKey value) := by
      unfold writeConfigFile
      rw [if_neg present, if_neg nonempty]
    rw [written]
    have stores : Stores services (generateKey services identity.custom md5) ⟨name, value, true⟩
        ⟨name, services.encryptStr config.aesKey value,
          (services.encryptStr config.aesKey value).length.toUInt32 + 100⟩ := by
      refine ⟨rfl, fun open_ => ?_, fun _ => ?_⟩
      · cases open_
      · rw [← key]
        exact ⟨nonempty, inverse⟩
    exact valid.writeFile ⟨name, value, true⟩ opened short plain
      (appendable config (mem_def.mpr opened)) stores
  | writeStringPair name value =>
    obtain ⟨config, opened, rfl⟩ := map_eq_some_iff.mp went
    obtain ⟨⟨short, plain⟩, appendable⟩ := may
    by_cases empty : value = []
    · have refused : config.writeStringPair name value = (false, config) := if_pos empty
      rw [refused]
      refine ⟨records, ?_⟩
      cases store
      cases opened
      exact valid
    · have written : config.writeStringPair name value = config.writeFile name value :=
        if_neg empty
      rw [written]
      exact valid.writeFile ⟨name, value, false⟩ opened short plain appendable
        ⟨rfl, fun _ => rfl, fun hidden => by cases hidden⟩
  | updateConfigFile name value =>
    obtain ⟨config, opened, rfl⟩ := map_eq_some_iff.mp went
    exact valid.updateConfigFile faithful present opened may
  | writeHeader =>
    obtain ⟨config, opened, rfl⟩ := map_eq_some_iff.mp went
    exact ⟨records, valid.writeHeader opened (may config (mem_def.mpr opened))⟩
  | reopen =>
    simp only [Store.step] at went
    split at went
    · cases went
    · next rests =>
      cases went
      obtain ⟨key, holds⟩ := valid.reopened sized whole rests
      have later := (valid.rests rests).2.2.2.2
      exact ⟨records, {
        __ := valid
        opened := fun config same => by
          cases same
          exact ⟨key, _, holds, (if_neg later).symm⟩
        rests := fun none => by cases none }⟩

theorem Valid.readEntry {tail : Bytes} (holds : config.Holds identity records tail)
    (key : config.aesKey = generateKey services identity.custom md5) {entry : Entry}
    (mem : entry ∈ store.entries) : readEntry services config entry = entry.value := by
  obtain ⟨j, at_⟩ := List.getElem?_of_mem mem
  have below := (List.getElem?_eq_some_iff.mp at_).1
  rw [valid.size] at below
  have at' := List.getElem?_eq_getElem below
  have stores := valid.stored j entry _ at_ at'
  have read := holds.readFile at'
  rw [stores.name] at read
  unfold Store.readEntry
  split
  · next hidden =>
    obtain ⟨nonempty, inverse⟩ := stores.cipher hidden
    unfold readConfigFile
    rw [read, key]
    rw [if_neg nonempty, inverse]
  · next open_ =>
    unfold readValue
    rw [read]
    exact stores.plain (Bool.not_eq_true _ ▸ open_)

theorem Valid.safe (sized : identity.Sized) (whole : md5.length = 256)
    (faithful : Faithful services (generateKey services identity.custom md5)) :
    store.Safe services identity.image where
  image := by
    unfold Store.bytes
    split
    · next config opened =>
      obtain ⟨-, tail, holds, -⟩ := valid.opened config opened
      rw [holds.bytes, List.take_left]
    · next rests => rw [(valid.rests rests).1, List.take_left]
  names rests := by
    obtain ⟨-, holds⟩ := valid.reopened sized whole rests
    rw [valid.names, holds.fileList, List.map_map]
    exact List.map_congr_left fun record mem => (holds.formed record mem).cString_name
  values rests entry mem := by
    obtain ⟨key, holds⟩ := valid.reopened sized whole rests
    exact valid.readEntry holds key mem
  refused config opened name value failed := by
    obtain ⟨key, tail, holds, -⟩ := valid.opened config (mem_def.mp opened)
    have present := generateKey_ne_nil services identity.custom whole
    cases found : config.findConfigFile name with
    | none =>
      unfold ConfigFile.updateConfigFile
      rw [found]
    | some j =>
      obtain ⟨record, at_, rfl⟩ := holds.record_of_found found
      have nonempty := (faithful value).1
      rw [← key] at nonempty present
      rw [holds.updateConfigFile services at_ present nonempty] at failed ⊢
      split
      · rfl
      · next small =>
        rw [if_neg small] at failed
        exact absurd rfl failed

end

end Invariant

/-- After every history in which records are only appended in the first session, the file is
read as it was written. -/
theorem file_safe_of_allowed (services : Services) (image custom md5 version : Bytes)
    (headless : ¬ EndsInHeader image) (small : image.length < 2 ^ 31)
    (customSize : custom.length < 64) (customPlain : 0 ∉ custom)
    (versionSize : version.length < 256) (whole : md5.length = 256)
    (faithful : Faithful services (generateKey services custom md5)) (actions : List Action)
    (final : Store)
    (allowed :
      Guarded (step services) (Allowed services) (start services image custom md5 version) actions)
    (ran : execute (step services) (start services image custom md5 version) actions = some final) :
    final.Safe services image := by
  have sized : Identity.Sized ⟨image, custom, version⟩ := ⟨customSize, customPlain, versionSize⟩
  have steps : ∀ {before : Store} {action : Action} {after : Store},
      (∃ records, before.Valid services ⟨image, custom, version⟩ md5 records) →
      before.Allowed services action → before.step services action = some after →
      ∃ records, after.Valid services ⟨image, custom, version⟩ md5 records := by
    rintro before action after ⟨records, valid⟩ allowed stepped
    exact valid.step sized whole faithful allowed stepped
  obtain ⟨records, valid⟩ := invariant_of_guarded steps
    ⟨_, start_valid services sized headless small whole⟩ allowed ran
  exact valid.safe sized whole faithful

def sampleServices : Services where
  encryptStr _ value := 1 :: value
  decryptStr _ encrypted := encrypted.tail
  hashRange _ := 0

def sampleImage : Bytes := [127, 69, 76, 70]

def sampleKey : Bytes := replicate 256 5

theorem sampleServices_faithful (key : Bytes) : Faithful sampleServices key :=
  fun _ => ⟨cons_ne_nil _ _, rfl⟩

def updatedRun : List Action :=
  [.writeConfigFile [97] [1, 2, 3], .writeStringPair [98] [7], .writeStringPair [98] [8],
    .updateConfigFile [97] [9], .writeHeader, .reopen, .updateConfigFile [97] [4, 4],
    .updateConfigFile [99] [1], .writeHeader]

theorem updatedRun_safe : Guarded (step sampleServices) (Allowed sampleServices)
        (start sampleServices sampleImage [67] sampleKey [49]) updatedRun ∧
      ∃ final, execute (step sampleServices) (start sampleServices sampleImage [67] sampleKey [49])
            updatedRun = some final ∧ (final.session.isNone ∧ final.file.length = 1693 ∧
            final.entries = [⟨key1, sampleKey, false⟩, ⟨[97], [4, 4], true⟩,
              ⟨[98], [7], false⟩]) ∧ final.Safe sampleServices sampleImage := by
  have allowed : Guarded (step sampleServices) (Allowed sampleServices)
      (start sampleServices sampleImage [67] sampleKey [49]) updatedRun := by decide +kernel
  obtain ⟨final, ran, facts⟩ :
      ∃ final, execute (step sampleServices) (start sampleServices sampleImage [67] sampleKey [49])
            updatedRun = some final ∧
          (final.session.isNone ∧ final.file.length = 1693 ∧
            final.entries = [⟨key1, sampleKey, false⟩, ⟨[97], [4, 4], true⟩, ⟨[98], [7], false⟩]) :=
    execute_check (by decide +kernel)
  exact ⟨allowed, final, ran, facts,
    file_safe_of_allowed sampleServices sampleImage [67] sampleKey [49] (by decide) (by decide)
      (by decide) (by decide) (by decide) length_replicate (sampleServices_faithful _)
      updatedRun final allowed ran⟩

/-- A record that a second session appends stands behind the old header, where it is not
looked for. -/
def appendedRun : List Action :=
  [.writeHeader, .reopen, .writeStringPair [98] [7], .writeHeader]

theorem appendedRun_not_safe :
    (¬ EndsInHeader sampleImage ∧ ∀ key, Faithful sampleServices key) ∧ ∃ final,
        execute (step sampleServices) (start sampleServices sampleImage [67] sampleKey [49])
            appendedRun = some final ∧
          final.entries = [⟨key1, sampleKey, false⟩, ⟨[98], [7], false⟩] ∧
          ¬ final.Safe sampleServices sampleImage := by
  obtain ⟨final, ran, rests, entries, missing⟩ :
      ∃ final, execute (step sampleServices) (start sampleServices sampleImage [67] sampleKey [49])
            appendedRun = some final ∧
          final.session.isNone ∧ final.entries = [⟨key1, sampleKey, false⟩, ⟨[98], [7], false⟩] ∧
            (ConfigFile.opened sampleServices final.file).fileList.map (cString ·.fileName) ≠
              final.entries.map Entry.name :=
    execute_check (by decide +kernel)
  refine ⟨⟨by decide, sampleServices_faithful⟩, final, ran, entries, fun safe => ?_⟩
  exact missing (safe.names (isNone_iff_eq_none.mp rests))

end Store

end AdkAaf.Adk.EncryptConfig
