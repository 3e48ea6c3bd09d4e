import ChatRelay.Proofs.Toml.Keys
import ChatRelay.Settings.CommandLine
/-!
# Options over a configuration document

A setting is the value of its option if that is given, else the value of its key
in the document, else the default. The settings of the document without the
options are validated first, so an invalid value in a document is reported even
if an option overrides it.
-/

namespace ChatRelay

namespace Settings

open Toml (Members Node)

/-- A setting: its key in a document, the meaning of the key's value, and its
field. -/
structure Entry (α : Type) where
  key : String
  read : Node → Option α
  get : Settings → α

namespace Entry

def address : Entry Address :=
  ⟨"addr", fun n => (textOf? n).bind Address.parse?, Settings.address⟩

def timeout : Entry Nat := ⟨"timeout", numberOf?, Settings.timeout⟩

def maxConnections : Entry (Option Nat) :=
  ⟨"max_connections", fun n => (numberOf? n).map some, Settings.maxConnections⟩

def maxFrameLength : Entry Nat :=
  ⟨"max_frame_len", numberOf?, Settings.maxFrameLength⟩

def chatBuffer : Entry Nat := ⟨"chat_buffer", numberOf?, Settings.chatBuffer⟩

def environment : Entry Environment :=
  ⟨"env", environmentOf?, Settings.environment⟩

variable {α : Type} {e : Entry α} {key : String} {node : Node} {s s' : Settings}

/-- The value that a document gives to the key, if any. -/
def inTable (e : Entry α) (table : Members) (otherwise : α) : Option α :=
  (table.lookup e.key).elim (some otherwise) e.read

/-- The value of an option, else of the document, else the default. -/
def pick (e : Entry α) (option : Option α) (table : Members) : Option α :=
  option.or (e.inTable table (e.get {}))

/-- Reading a key sets its own setting and leaves the others alone. -/
def SetsOwn (e : Entry α) (key : String) (node : Node)
    (s s' : Settings) : Prop :=
  if key = e.key then e.read node = some (e.get s') else e.get s' = e.get s

theorem SetsOwn.own (h : e.read node = some (e.get s')) :
    e.SetsOwn e.key node s s' := by
  rw [SetsOwn, if_pos rfl]
  exact h

theorem SetsOwn.other (hkey : key ≠ e.key) (h : e.get s' = e.get s) :
    e.SetsOwn key node s s' := by
  rw [SetsOwn, if_neg hkey]
  exact h

/-- The effect of a table on a setting, if each key sets its own and none occurs
twice. -/
theorem inTable_foldlM
    (hstep : ∀ s s' key node, s.set? key node = some s' →
      e.SetsOwn key node s s')
    {table : Members} (hapart : table.DistinctKeys)
    (h : table.foldlM (fun s m => s.set? m.1 m.2) s = some s') :
    e.inTable table (e.get s) = some (e.get s') := by
  induction table generalizing s with
  | nil =>
      obtain rfl := Option.some.inj h
      rfl
  | cons m table ih =>
      obtain ⟨key, node⟩ := m
      obtain ⟨hfirst, hrest⟩ := Members.apart_cons.mp hapart
      rw [List.foldlM_cons] at h
      obtain ⟨next, hnext, h⟩ := Option.bind_eq_some_iff.mp h
      have hlater := ih hrest h
      have hhere := hstep _ _ _ _ hnext
      rw [inTable] at hlater ⊢
      by_cases hkey : key = e.key
      · subst hkey
        rw [SetsOwn, if_pos rfl] at hhere
        rw [Members.lookup_eq_none_iff.mpr hfirst] at hlater
        rw [List.lookup_cons_self]
        exact hhere.trans hlater
      · rw [SetsOwn, if_neg hkey] at hhere
        rw [List.lookup_cons, beq_false_of_ne (Ne.symm hkey), ← hhere]
        exact hlater

end Entry

/-- The effect of a key with its value on settings. -/
structure Sets (key : String) (node : Node) (s s' : Settings) : Prop where
  address : Entry.address.SetsOwn key node s s'
  timeout : Entry.timeout.SetsOwn key node s s'
  maxConnections : Entry.maxConnections.SetsOwn key node s s'
  maxFrameLength : Entry.maxFrameLength.SetsOwn key node s s'
  chatBuffer : Entry.chatBuffer.SetsOwn key node s s'
  environment : Entry.environment.SetsOwn key node s s'

theorem sets_of_set? {s s' : Settings} {key : String} {node : Node}
    (h : s.set? key node = some s') : Sets key node s s' := by
  unfold set? at h
  split at h
  · obtain ⟨text, htext, h⟩ := Option.bind_eq_some_iff.mp h
    obtain ⟨x, hx, h⟩ := Option.bind_eq_some_iff.mp h
    obtain rfl := Option.some.inj h
    have hread : Entry.address.read node = some x :=
      Option.bind_eq_some_iff.mpr ⟨text, htext, hx⟩
    exact ⟨.own hread, .other (by decide) rfl, .other (by decide) rfl,
      .other (by decide) rfl, .other (by decide) rfl, .other (by decide) rfl⟩
  · obtain ⟨x, hx, h⟩ := Option.bind_eq_some_iff.mp h
    obtain rfl := Option.some.inj h
    exact ⟨.other (by decide) rfl, .own hx, .other (by decide) rfl,
      .other (by decide) rfl, .other (by decide) rfl, .other (by decide) rfl⟩
  · obtain ⟨x, hx, h⟩ := Option.bind_eq_some_iff.mp h
    obtain rfl := Option.some.inj h
    have hread : Entry.maxConnections.read node = some (some x) :=
      congrArg (Option.map some) hx
    exact ⟨.other (by decide) rfl, .other (by decide) rfl, .own hread,
      .other (by decide) rfl, .other (by decide) rfl, .other (by decide) rfl⟩
  · obtain ⟨x, hx, h⟩ := Option.bind_eq_some_iff.mp h
    obtain rfl := Option.some.inj h
    exact ⟨.other (by decide) rfl, .other (by decide) rfl,
      .other (by decide) rfl, .own hx, .other (by decide) rfl,
        .other (by decide) rfl⟩
  · obtain ⟨x, hx, h⟩ := Option.bind_eq_some_iff.mp h
    obtain rfl := Option.some.inj h
    exact ⟨.other (by decide) rfl, .other (by decide) rfl,
      .other (by decide) rfl, .other (by decide) rfl, .own hx,
        .other (by decide) rfl⟩
  · obtain ⟨x, hx, h⟩ := Option.bind_eq_some_iff.mp h
    obtain rfl := Option.some.inj h
    exact ⟨.other (by decide) rfl, .other (by decide) rfl,
      .other (by decide) rfl, .other (by decide) rfl,
        .other (by decide) rfl, .own hx⟩
  · contradiction

theorem validate_cases (s : Settings) :
    s.validate = .ok s ∨ ∃ e, s.validate = .error e := by
  unfold validate
  split
  · exact .inr ⟨_, rfl⟩
  split
  · exact .inr ⟨_, rfl⟩
  split
  · exact .inr ⟨_, rfl⟩
  split
  · exact .inr ⟨_, rfl⟩
  · exact .inl rfl

end Settings

namespace Options

open Settings (Entry)
open Toml (Members)

/-- Each setting is that of its option, else of the document, else the
default. -/
structure Merges (o : Options) (table : Members) (s : Settings) : Prop where
  address : Entry.address.pick o.address table = some s.address
  timeout : Entry.timeout.pick o.timeout table = some s.timeout
  maxConnections :
    Entry.maxConnections.pick (o.maxConnections.map some) table =
      some s.maxConnections
  maxFrameLength : Entry.maxFrameLength.pick o.maxFrameLength table =
    some s.maxFrameLength
  chatBuffer : Entry.chatBuffer.pick o.chatBuffer table = some s.chatBuffer
  environment : Entry.environment.pick o.environment table = some s.environment

variable {o : Options} {table : Members} {s s' : Settings}

/-- The merged settings are unique. -/
theorem Merges.unique (h : o.Merges table s) (h' : o.Merges table s') :
    s = s' := by
  cases s with
  | mk address timeout maxConnections maxFrameLength chatBuffer environment =>
      cases s' with
      | mk =>
          obtain rfl := Option.some.inj (h.address.symm.trans h'.address)
          obtain rfl := Option.some.inj (h.timeout.symm.trans h'.timeout)
          obtain rfl :=
            Option.some.inj (h.maxConnections.symm.trans h'.maxConnections)
          obtain rfl :=
            Option.some.inj (h.maxFrameLength.symm.trans h'.maxFrameLength)
          obtain rfl := Option.some.inj (h.chatBuffer.symm.trans h'.chatBuffer)
          obtain rfl :=
            Option.some.inj (h.environment.symm.trans h'.environment)
          rfl

/-- The settings of a document are merged with no options. -/
theorem merges_read {document : String} (h : Settings.read? document = some s) :
    ∃ table, Toml.parse? document = some table ∧
      ({} : Options).Merges table s := by
  obtain ⟨table, htable, h⟩ := Option.bind_eq_some_iff.mp h
  have hapart := Toml.parse?_apart htable
  refine ⟨table, htable, ?_⟩
  constructor
  · exact Entry.inTable_foldlM
      (fun _ _ _ _ h => (Settings.sets_of_set? h).address) hapart h
  · exact Entry.inTable_foldlM
      (fun _ _ _ _ h => (Settings.sets_of_set? h).timeout) hapart h
  · exact Entry.inTable_foldlM
      (fun _ _ _ _ h => (Settings.sets_of_set? h).maxConnections) hapart h
  · exact Entry.inTable_foldlM
      (fun _ _ _ _ h => (Settings.sets_of_set? h).maxFrameLength) hapart h
  · exact Entry.inTable_foldlM
      (fun _ _ _ _ h => (Settings.sets_of_set? h).chatBuffer) hapart h
  · exact Entry.inTable_foldlM
      (fun _ _ _ _ h => (Settings.sets_of_set? h).environment) hapart h

/-- An option overrides the value without it. -/
theorem pick_getD {α : Type} {e : Entry α} {option : Option α} {x : α}
    (h : e.pick none table = some x) :
    e.pick option table = some (option.getD x) := by
  cases option with
  | none => exact h
  | some y => rfl

theorem Merges.applyTo (h : ({} : Options).Merges table s) (o : Options) :
    o.Merges table (o.applyTo s) where
  address := pick_getD h.address
  timeout := pick_getD h.timeout
  maxConnections := by
    have hor : (o.maxConnections.map some).getD s.maxConnections =
        o.maxConnections.or s.maxConnections := by
      cases o.maxConnections with
      | none => rfl
      | some n => rfl
    exact (pick_getD h.maxConnections).trans (congrArg some hor)
  maxFrameLength := pick_getD h.maxFrameLength
  chatBuffer := pick_getD h.chatBuffer
  environment := pick_getD h.environment

/-- The document is validated, then the merged settings. -/
theorem settings_eq {files : String → Option Bytes} {path document : String}
    (hpath : o.document = some path)
    (htext : (files path).bind Utf8.toString? = some document)
    (hread : Settings.read? document = some s) :
    o.settings files = s.validate.bind fun base =>
      (o.applyTo base).validate := by
  have hfile : Settings.ofFile (files path) = s.validate := by
    simp only [Settings.ofFile, htext, Settings.ofDocument, hread]
  rw [settings, hpath, ← hfile]
  rfl

/-- For every document that can be read as settings and all options, the program
has settings to run with if and only if both the settings of the document alone
and the merged settings are valid, and then it runs with the merged ones.
Otherwise the error is that of the document if there is one, else that of the
merged settings. -/
theorem document_and_merged_checked (o : Options)
    (files : String → Option Bytes) {path document : String} {base : Settings}
    (hpath : o.document = some path)
    (htext : (files path).bind Utf8.toString? = some document)
    (hread : Settings.read? document = some base) :
    ∃ table merged, Toml.parse? document = some table ∧
      ({} : Options).Merges table base ∧ o.Merges table merged ∧
      (∀ s, o.settings files = .ok s ↔
        base.validate = .ok base ∧ merged.validate = .ok merged ∧ s = merged) ∧
      (∀ e, o.settings files = .error e ↔ base.validate = .error e ∨
        base.validate = .ok base ∧ merged.validate = .error e) := by
  obtain ⟨table, htable, hbase⟩ := merges_read hread
  refine ⟨table, o.applyTo base, htable, hbase, hbase.applyTo o, ?_⟩
  rw [settings_eq hpath htext hread]
  rcases Settings.validate_cases base with hvalid | ⟨e, herror⟩
  · rw [hvalid, Except.bind]
    rcases Settings.validate_cases (o.applyTo base) with hmerged | ⟨e, hmerged⟩
    · simp [hmerged, eq_comm]
    · simp [hmerged]
  · simp [herror, Except.bind]

/-- A document with two settings, one of which an option overrides. -/
def sampleFile (_ : String) : Option Bytes :=
  some (Utf8.ofString "timeout = 250\nchat_buffer = 2\n")

theorem sampleFile_checked :
    let o : Options :=
      { document := some "f", chatBuffer := some 9, environment := some .dev }
    let merged : Settings :=
      { timeout := 250, chatBuffer := 9, environment := .dev }
    (sampleFile "f").bind Utf8.toString? =
      some "timeout = 250\nchat_buffer = 2\n" ∧
      Settings.read? "timeout = 250\nchat_buffer = 2\n" =
        some { timeout := 250, chatBuffer := 2 } ∧
      (∃ table, o.Merges table merged) ∧
      o.settings sampleFile = .ok merged := by
  intro o merged
  have htext : (sampleFile "f").bind Utf8.toString? =
      some "timeout = 250\nchat_buffer = 2\n" := by decide +kernel
  have hread : Settings.read? "timeout = 250\nchat_buffer = 2\n" =
      some { timeout := 250, chatBuffer := 2 } := by decide +kernel
  obtain ⟨table, s, -, hbase, hs, hok, -⟩ :=
    document_and_merged_checked o sampleFile rfl htext hread
  obtain rfl : s = merged := hs.unique (hbase.applyTo o)
  exact ⟨htext, hread, ⟨table, hs⟩, (hok _).mpr ⟨rfl, rfl, rfl⟩⟩

/-- A timeout of zero in a document is refused although an option overrides
it. -/
theorem overridden_value_is_refused :
    let o : Options := { document := some "f", timeout := some 5 }
    let files : String → Option Bytes :=
      fun _ => some (Utf8.ofString "timeout = 0")
    ∃ table base merged, (files "f").bind Utf8.toString? = some "timeout = 0" ∧
      Settings.read? "timeout = 0" = some base ∧
      Toml.parse? "timeout = 0" = some table ∧
      o.Merges table merged ∧ merged.validate = .ok merged ∧
      o.settings files = .error (.notPositive "timeout") := by
  intro o files
  have htext : (files "f").bind Utf8.toString? = some "timeout = 0" := by
    decide +kernel
  have hread : Settings.read? "timeout = 0" = some { timeout := 0 } := by
    decide +kernel
  obtain ⟨table, htable, hbase⟩ := merges_read hread
  refine ⟨table, { timeout := 0 }, { timeout := 5 }, htext, hread, htable,
    hbase.applyTo o, rfl, ?_⟩
  exact settings_eq rfl htext hread

end Options
end ChatRelay
