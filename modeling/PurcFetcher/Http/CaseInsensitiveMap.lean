import PurcFetcher.Http.HeaderMap

/-!
# The header map as a map from names without case

The reference is a function from folded names to values.  A run of operations of the
header map is followed by the reference as long as two private agreements are kept: a
name that is appended is not in the map, and a name that is set as an uncommon one is
not the name of a known header.
-/

namespace PurcFetcher.Http

open Entries Ipc Machine Text

/-! ## The reference -/

abbrev Reference := Option Str → Option StringValue

namespace Reference

def empty : Reference := fun _ => none

def get (reference : Reference) (name : Option Str) : StringValue := (reference name).getD .null

/-- The value is added to the one that the name has, with a comma between them. -/
def add (reference : Reference) (name : Option Str) (value : StringValue) : Option Reference :=
  ((reference name).elim (some value) (makeString · (lit ", ") value)).map fun result =>
    Function.update reference name (some result)

end Reference

/-! ## Looking up what was set -/

namespace HTTPHeaderMap

variable (map : HTTPHeaderMap)

theorem getKnown_eq_lookup (header : HTTPHeaderName) :
    map.getKnown header = (lookup id header map.commonHeaders).getD .null := by
  rw [getKnown, getElem?_findMatching]

theorem getUncommonHeader_eq_lookup (name : StringValue) :
    map.getUncommonHeader name = (lookup folded (folded name) map.uncommonHeaders).getD .null := by
  rw [getUncommonHeader, getElem?_findMatching]

variable {name other : StringValue}

theorem findHTTPHeaderName_congr (hfolded : folded name = folded other) :
    findHTTPHeaderName name = findHTTPHeaderName other :=
  Option.ext fun header => by
    rw [findHTTPHeaderName_eq_some_iff, findHTTPHeaderName_eq_some_iff, hfolded]

theorem get_congr (hfolded : folded name = folded other) : map.get name = map.get other := by
  rw [get, get, findHTTPHeaderName_congr hfolded, getUncommonHeader, getUncommonHeader, hfolded]

theorem get_set_self (name val : StringValue) : (map.set name val).get name = val := by
  grind [get, HTTPHeaderMap.set, getKnown_eq_lookup, setKnown, lookup_assign,
    getUncommonHeader_eq_lookup, setUncommonHeader]

theorem get_set_ne (val : StringValue) (hfolded : folded name ≠ folded other) :
    (map.set name val).get other = map.get other := by
  rw [get, get, HTTPHeaderMap.set]
  cases hname : findHTTPHeaderName name with
  | some header =>
    cases hother : findHTTPHeaderName other with
    | some found =>
      grind [findHTTPHeaderName_eq_some_iff, getKnown_eq_lookup, setKnown, lookup_assign]
    | none => rfl
  | none =>
    cases findHTTPHeaderName other with
    | some => rfl
    | none => grind [getUncommonHeader_eq_lookup, setUncommonHeader, lookup_assign]

end HTTPHeaderMap

/-! ## Operations -/

inductive HeaderAction
  | setKnown (name : HTTPHeaderName) (value : StringValue)
  | addKnown (name : HTTPHeaderName) (value : StringValue)
  | removeKnown (name : HTTPHeaderName)
  | addIfNotPresent (name : HTTPHeaderName) (value : StringValue)
  | set (name value : StringValue)
  | add (name value : StringValue)
  | append (name value : StringValue)
  | setUncommonHeader (name value : StringValue)
  | remove (name : StringValue)
  | isolatedCopy
  /-- The map is encoded after the bytes of `buffer` in a message that is `whole`, and
  decoded from where the decoder stands. -/
  | decode (start : ℕ) (buffer : Buffer) (whole : List UInt8) (decoder : Decoder)

namespace HTTPHeaderMap

/-- A map that fails to be decoded is dropped. -/
def step (map : HTTPHeaderMap) : HeaderAction → Option HTTPHeaderMap
  | .setKnown name value => some (map.setKnown name value)
  | .addKnown name value => map.addKnown name value
  | .removeKnown name => some (map.removeKnown name)
  | .addIfNotPresent name value => some (map.addIfNotPresent name value)
  | .set name value => some (map.set name value)
  | .add name value => map.add name value
  | .append name value => some (map.append name value)
  | .setUncommonHeader name value => some (map.setUncommonHeader name value)
  | .remove name => some (map.remove name)
  | .isolatedCopy => some map.isolatedCopy
  | .decode _ _ _ decoder =>
    if map.fits then some ((HTTPHeaderMap.decode decoder).1.getD empty) else none

/-- What the callers of the operations take care of. -/
def Agreed (map : HTTPHeaderMap) : HeaderAction → Prop
  | .append name _ => map.contains name = false
  | .setUncommonHeader name _ => findHTTPHeaderName name = none
  | .decode start buffer whole decoder =>
    8 ∣ start ∧ Reading start decoder whole buffer.length ∧ map.encode buffer <+: whole
  | _ => True

end HTTPHeaderMap

def Reference.step (reference : Reference) : HeaderAction → Option Reference
  | .setKnown name value => some (Function.update reference (knownName name) (some value))
  | .addKnown name value => reference.add (knownName name) value
  | .removeKnown name => some (Function.update reference (knownName name) none)
  | .addIfNotPresent name value =>
    some (if (reference (knownName name)).isSome then reference
      else Function.update reference (knownName name) (some value))
  | .set name value => some (Function.update reference (folded name) (some value))
  | .add name value => reference.add (folded name) value
  | .append name value => some (Function.update reference (folded name) (some value))
  | .setUncommonHeader name value => some (Function.update reference (folded name) (some value))
  | .remove name => some (Function.update reference (folded name) none)
  | .isolatedCopy => some reference
  | .decode _ _ _ _ => some reference

/-! ## Refinement -/

namespace HTTPHeaderMap

def entryNames (map : HTTPHeaderMap) : List (Option Str) :=
  names knownName map.commonHeaders ++ names folded map.uncommonHeaders

/-- The two vectors hold the values of the reference, each name once. -/
structure Refines (map : HTTPHeaderMap) (reference : Reference) : Prop where
  commonNodup : (names id map.commonHeaders).Nodup
  uncommonNodup : (names folded map.uncommonHeaders).Nodup
  unknown : ∀ name ∈ names folded map.uncommonHeaders, ∀ header, name ≠ knownName header
  common : ∀ header, lookup id header map.commonHeaders = reference (knownName header)
  uncommon : ∀ name, (∀ header, name ≠ knownName header) →
    lookup folded name map.uncommonHeaders = reference name

namespace Refines

variable {map : HTTPHeaderMap} {reference : Reference} {name : StringValue} {next : HTTPHeaderMap}

section

variable (hrefines : Refines map reference)
include hrefines

theorem setKnown (header : HTTPHeaderName) (val : StringValue) :
    Refines (map.setKnown header val)
      (Function.update reference (knownName header) (some val)) := by
  refine { hrefines with commonNodup := nodup_assign hrefines.commonNodup,
                         common := fun other => ?_, uncommon := fun name hname => ?_ }
  · rw [HTTPHeaderMap.setKnown, lookup_assign, Function.update_apply, hrefines.common]
    simp only [id_eq, knownName_injective.eq_iff, eq_comm]
  · rw [Function.update_of_ne (hname header)]
    exact hrefines.uncommon name hname

theorem removeKnown (header : HTTPHeaderName) :
    Refines (map.removeKnown header) (Function.update reference (knownName header) none) := by
  refine { hrefines with
    commonNodup := hrefines.commonNodup.sublist names_removeFirstMatching_sublist,
    common := fun other => ?_, uncommon := fun name hname => ?_ }
  · rw [HTTPHeaderMap.removeKnown, lookup_removeFirstMatching hrefines.commonNodup,
      Function.update_apply, hrefines.common]
    simp only [knownName_injective.eq_iff, eq_comm]
  · rw [Function.update_of_ne (hname header)]
    exact hrefines.uncommon name hname

theorem setUncommonHeader (hunknown : findHTTPHeaderName name = none) (val : StringValue) :
    Refines (map.setUncommonHeader name val)
      (Function.update reference (folded name) (some val)) := by
  rw [findHTTPHeaderName_eq_none_iff] at hunknown
  refine { hrefines with uncommonNodup := nodup_assign hrefines.uncommonNodup,
                         unknown := fun other hother => ?_,
                         common := fun header => ?_, uncommon := fun other hother => ?_ }
  · rcases mem_names_assign.1 hother with rfl | hold
    · exact hunknown
    · exact hrefines.unknown other hold
  · rw [Function.update_of_ne (hunknown header).symm]
    exact hrefines.common header
  · rw [HTTPHeaderMap.setUncommonHeader, lookup_assign, Function.update_apply,
      hrefines.uncommon other hother]
    simp only [eq_comm]

/-! ### Looking up -/

theorem getKnown_eq (header : HTTPHeaderName) :
    map.getKnown header = reference.get (knownName header) := by
  rw [getKnown_eq_lookup, hrefines.common, Reference.get]

theorem containsKnown_eq (header : HTTPHeaderName) :
    map.containsKnown header = (reference (knownName header)).isSome := by
  rw [containsKnown, isSome_findMatching, hrefines.common]

theorem get_eq (name : StringValue) :
    map.get name = reference.get (folded name) := by
  rw [HTTPHeaderMap.get]
  split
  · next header hfind =>
    rw [findHTTPHeaderName_eq_some_iff.1 hfind]
    exact hrefines.getKnown_eq header
  · next hfind =>
    rw [getUncommonHeader_eq_lookup,
      hrefines.uncommon _ (findHTTPHeaderName_eq_none_iff.1 hfind), Reference.get]

theorem contains_eq (name : StringValue) :
    map.contains name = (reference (folded name)).isSome := by
  rw [contains]
  split
  · next header hfind =>
    rw [findHTTPHeaderName_eq_some_iff.1 hfind]
    exact hrefines.containsKnown_eq header
  · next hfind =>
    rw [isSome_findMatching, hrefines.uncommon _ (findHTTPHeaderName_eq_none_iff.1 hfind)]

/-! ### Operations by any name -/

theorem set (name val : StringValue) :
    Refines (map.set name val) (Function.update reference (folded name) (some val)) := by
  rw [HTTPHeaderMap.set]
  split
  · next header hfind =>
    rw [findHTTPHeaderName_eq_some_iff.1 hfind]
    exact hrefines.setKnown header val
  · next hfind => exact hrefines.setUncommonHeader hfind val

theorem remove (name : StringValue) :
    Refines (map.remove name) (Function.update reference (folded name) none) := by
  rw [HTTPHeaderMap.remove]
  split
  · next header hfind =>
    rw [findHTTPHeaderName_eq_some_iff.1 hfind]
    exact hrefines.removeKnown header
  · next hunknown =>
    rw [findHTTPHeaderName_eq_none_iff] at hunknown
    refine { hrefines with
      uncommonNodup := hrefines.uncommonNodup.sublist names_removeFirstMatching_sublist,
      unknown := fun other hother =>
        hrefines.unknown other (names_removeFirstMatching_sublist.subset hother),
      common := fun header => ?_, uncommon := fun other hother => ?_ }
    · rw [Function.update_of_ne (hunknown header).symm]
      exact hrefines.common header
    · rw [lookup_removeFirstMatching hrefines.uncommonNodup, Function.update_apply,
        hrefines.uncommon other hother]
      simp only [eq_comm]

theorem append_eq_set (hnew : map.contains name = false) (val : StringValue) :
    map.append name val = map.set name val := by
  rw [hrefines.contains_eq, Option.isSome_eq_false_iff, Option.isNone_iff_eq_none] at hnew
  rw [append, HTTPHeaderMap.set]
  split
  · next header hfind =>
    rw [findHTTPHeaderName_eq_some_iff.1 hfind, ← hrefines.common, lookup_eq_none_iff] at hnew
    rw [HTTPHeaderMap.setKnown, assign_of_not_mem hnew]
  · next hfind =>
    rw [← hrefines.uncommon _ (findHTTPHeaderName_eq_none_iff.1 hfind), lookup_eq_none_iff] at hnew
    rw [HTTPHeaderMap.setUncommonHeader, assign_of_not_mem hnew]

theorem addIfNotPresent (header : HTTPHeaderName) (val : StringValue) :
    Refines (map.addIfNotPresent header val)
      (if (reference (knownName header)).isSome then reference
        else Function.update reference (knownName header) (some val)) := by
  rw [HTTPHeaderMap.addIfNotPresent, hrefines.containsKnown_eq]
  split
  · exact hrefines
  · next hnew =>
    rw [← hrefines.common, isSome_lookup_iff] at hnew
    have hset := hrefines.setKnown header val
    rwa [HTTPHeaderMap.setKnown, assign_of_not_mem hnew] at hset

theorem addKnown {header : HTTPHeaderName} {val : StringValue}
    (hnext : map.addKnown header val = some next) :
    ∃ follower, reference.add (knownName header) val = some follower ∧
      Refines next follower := by
  rw [HTTPHeaderMap.addKnown, alter_eq_assign, Option.map_map, id_eq, hrefines.common] at hnext
  obtain ⟨res, hres, rfl⟩ := Option.map_eq_some_iff.1 hnext
  exact ⟨_, Option.map_eq_some_iff.2 ⟨res, hres, rfl⟩, hrefines.setKnown header res⟩

theorem add {val : StringValue} (hnext : map.add name val = some next) :
    ∃ follower, reference.add (folded name) val = some follower ∧ Refines next follower := by
  rw [HTTPHeaderMap.add] at hnext
  split at hnext
  · next header hfind =>
    rw [findHTTPHeaderName_eq_some_iff.1 hfind]
    exact hrefines.addKnown hnext
  · next hfind =>
    rw [alter_eq_assign, Option.map_map,
      hrefines.uncommon _ (findHTTPHeaderName_eq_none_iff.1 hfind)] at hnext
    obtain ⟨res, hres, rfl⟩ := Option.map_eq_some_iff.1 hnext
    exact ⟨_, Option.map_eq_some_iff.2 ⟨res, hres, rfl⟩, hrefines.setUncommonHeader hfind res⟩

end

theorem isolatedCopy_eq (map : HTTPHeaderMap) : map.isolatedCopy = map := by
  simp only [isolatedCopy, isolatedCopyString_eq, Prod.mk.eta, List.map_id']

theorem step {action : HeaderAction} (hrefines : Refines map reference)
    (hagreed : map.Agreed action) (hnext : map.step action = some next) :
    ∃ follower, reference.step action = some follower ∧ Refines next follower := by
  cases action with
  | setKnown name val => exact ⟨_, rfl, Option.some.inj hnext ▸ hrefines.setKnown name val⟩
  | addKnown => exact hrefines.addKnown hnext
  | removeKnown name => exact ⟨_, rfl, Option.some.inj hnext ▸ hrefines.removeKnown name⟩
  | addIfNotPresent name val =>
    exact ⟨_, rfl, Option.some.inj hnext ▸ hrefines.addIfNotPresent name val⟩
  | set name val => exact ⟨_, rfl, Option.some.inj hnext ▸ hrefines.set name val⟩
  | add => exact hrefines.add hnext
  | append name val =>
    rw [HTTPHeaderMap.step, hrefines.append_eq_set hagreed] at hnext
    exact ⟨_, rfl, Option.some.inj hnext ▸ hrefines.set name val⟩
  | setUncommonHeader name val =>
    exact ⟨_, rfl, Option.some.inj hnext ▸ hrefines.setUncommonHeader hagreed val⟩
  | remove name => exact ⟨_, rfl, Option.some.inj hnext ▸ hrefines.remove name⟩
  | isolatedCopy =>
    rw [HTTPHeaderMap.step, isolatedCopy_eq] at hnext
    exact ⟨_, rfl, Option.some.inj hnext ▸ hrefines⟩
  | decode start buf whole dec =>
    obtain ⟨hfits, hdecoded⟩ := Option.ite_none_right_eq_some.1 hnext
    obtain ⟨hstart, hreading, hwhole⟩ := hagreed
    obtain ⟨last, hrun, -⟩ := (reads_map hstart hfits buf).2 dec whole hreading hwhole
    rw [hrun] at hdecoded
    exact ⟨_, rfl, Option.some.inj hdecoded ▸ hrefines⟩

theorem entryNames_nodup (hrefines : Refines map reference) : map.entryNames.Nodup := by
  have hcommon : names knownName map.commonHeaders =
      (names id map.commonHeaders).map knownName := by
    rw [names, names, List.map_map]
    rfl
  rw [entryNames, List.nodup_append, hcommon]
  refine ⟨hrefines.commonNodup.map knownName_injective, hrefines.uncommonNodup, ?_⟩
  intro left hleft right hright heq
  obtain ⟨header, -, rfl⟩ := List.mem_map.1 hleft
  exact hrefines.unknown right hright header heq.symm

end Refines

/-- What users of the map can see is what the reference has. -/
structure Agrees (map : HTTPHeaderMap) (reference : Reference) : Prop where
  /-- At most one entry for each name without case. -/
  nodup : map.entryNames.Nodup
  uncommon : ∀ entry ∈ map.uncommonHeaders, ∀ header, folded entry.1 ≠ knownName header
  getKnown : ∀ header, map.getKnown header = reference.get (knownName header)
  containsKnown : ∀ header, map.containsKnown header = (reference (knownName header)).isSome
  get : ∀ name, map.get name = reference.get (folded name)
  contains : ∀ name, map.contains name = (reference (folded name)).isSome
  /-- A loop over the map ends and visits each entry once. -/
  visits : ∀ fuel > map.commonHeaders.length + map.uncommonHeaders.length,
    ConstIterator.visit map fuel (ConstIterator.first map) = some (ConstIterator.keyValues map)

/-- The header map refines the map from names without case, in every run in which an
appended name is new and no known name is set as an uncommon one. -/
theorem agrees_with_reference {actions : List HeaderAction} {map : HTTPHeaderMap}
    (hagreed : Meets step Agreed empty actions) (hrun : run step empty actions = some map) :
    ∃ reference, run Reference.step Reference.empty actions = some reference ∧
      map.Agrees reference := by
  obtain ⟨reference, hfollows, hrefines⟩ :=
    run_of_simulation Refines.step (show Refines empty Reference.empty from
      ⟨List.nodup_nil, List.nodup_nil, fun _ hname => absurd hname List.not_mem_nil,
        fun _ => rfl, fun _ _ => rfl⟩) hagreed hrun
  exact ⟨reference, hfollows,
    { nodup := hrefines.entryNames_nodup
      uncommon := fun entry hentry => hrefines.unknown _ (List.mem_map_of_mem hentry)
      getKnown := hrefines.getKnown_eq
      containsKnown := hrefines.containsKnown_eq
      get := hrefines.get_eq
      contains := hrefines.contains_eq
      visits := fun _ hfuel => ConstIterator.visit_update (List.nil_append _).symm hfuel rfl rfl }⟩

/-- A value is set under a spelling of a known name and added to under the enumeration. -/
def acceptActions : List HeaderAction :=
  [.set (headerString .accept) .null, .addKnown .accept (headerString .te)]

theorem agrees_with_reference_accept :
    Meets step Agreed empty acceptActions ∧
      ∃ map, run step empty acceptActions = some map ∧
        ∃ reference, run Reference.step Reference.empty acceptActions = some reference ∧
          map.Agrees reference := by
  have hagreed : Meets step Agreed empty acceptActions :=
    ⟨trivial, fun _ _ => ⟨trivial, fun _ _ => trivial⟩⟩
  have hrun : ∃ map, run step empty acceptActions = some map := by
    simp only [acceptActions, run, step, Option.bind_some, Option.bind_fun_some, set,
      findHTTPHeaderName_headerString]
    exact ⟨_, rfl⟩
  obtain ⟨map, hmap⟩ := hrun
  exact ⟨hagreed, map, hmap, agrees_with_reference hagreed hmap⟩

/-- A known name that is set as an uncommon one is not found under its name. -/
theorem uncommon_header_with_known_name :
    run step empty [.setUncommonHeader (headerString .accept) (headerString .te)] =
        some (setUncommonHeader empty (headerString .accept) (headerString .te)) ∧
      (∃ entry ∈ (setUncommonHeader empty (headerString .accept)
          (headerString .te)).uncommonHeaders, folded entry.1 = knownName .accept) ∧
      (setUncommonHeader empty (headerString .accept) (headerString .te)).contains
          (headerString .accept) = false := by
  refine ⟨rfl, ⟨_, List.mem_singleton_self _, rfl⟩, ?_⟩
  rfl

end HTTPHeaderMap

end PurcFetcher.Http
