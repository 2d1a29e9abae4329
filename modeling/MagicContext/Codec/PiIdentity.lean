import MagicContext.Codec.PiReplay

/-!
# The ids of the messages of a session

A message keeps the id it was first given: ids are pinned under the key of the entry, and the pins
are handed from one decoding to the next.  The key is the id of the entry before anything else, the
first id is the response's, or made from a timestamp, before it is the key.  Entries with different
keys can so be given one id.

## What is here

* `decodeCalls` — decodings of a session, each with the sidecar of the one before.
* `firstName` — the id under which a key was first seen.
* `decodeCalls_eq` — **every message has the id its key was first seen under**.
* **`ids_unique_iff`** — the ids are stable, and unique exactly when the first ones are.
* `ids_collide` — two entries of one millisecond.
-/

namespace MagicContext.Codec
namespace Pi

variable (tools : JsonTools)

/-! ## Keys and first names -/

/-- What the id of an entry is pinned under. -/
def keyOf (entry : Json × Nat) : String :=
  match piMessage entry.1 with
  | some message => piStableKey tools entry.1 message entry.2
  | none => (entry.1.stringField "id").getD ("pi-entry-" ++ hashPrefix tools.hash entry.1 24)

/-- The id of an entry whose key has no pin. -/
def nameOf (entry : Json × Nat) : String :=
  match piMessage entry.1 with
  | some message => firstSightPiMid entry.1 message (keyOf tools entry)
  | none => "pi-entry-" ++ keyOf tools entry

/-- The entries that become messages, with their indexes. -/
def emitted (entries : List Json) : List (Json × Nat) :=
  entries.zipIdx.filter fun entry => emits entry.1

variable (pins : SortedMap String String)

/-- The pin of a key after some entries. -/
def pinAfter (entries : List (Json × Nat)) (key : String) : Option String :=
  (pins.get key).or ((entries.find? fun entry => keyOf tools entry == key).map (nameOf tools))

theorem pinAfter_cons (entry : Json × Nat) (entries : List (Json × Nat)) (key : String) :
    pinAfter tools (pins.insert (keyOf tools entry)
        ((pins.get (keyOf tools entry)).getD (nameOf tools entry))) entries key =
      pinAfter tools pins (entry :: entries) key := by
  rw [pinAfter, pinAfter, SortedMap.get_insert, List.find?_cons]
  by_cases hkey : keyOf tools entry = key
  · subst hkey
    rw [if_pos rfl, beq_self_eq_true]
    cases pins.get (keyOf tools entry) <;> rfl
  · rw [if_neg hkey, beq_eq_false_iff_ne.mpr hkey]

theorem pinAfter_append (entries more : List (Json × Nat))
    (key : String) : pinAfter tools pins (entries ++ more) key =
      (pinAfter tools pins entries key).or
        ((more.find? fun entry => keyOf tools entry == key).map (nameOf tools)) := by
  rw [pinAfter, pinAfter, List.find?_append, Option.map_or, Option.or_assoc]

variable {entry : Json × Nat}

/-- The key of an entry that was seen has a pin. -/
theorem isSome_pinAfter {entries : List (Json × Nat)} (h : entry ∈ entries) :
    (pinAfter tools pins entries (keyOf tools entry)).isSome = true := by
  have hfind : (entries.find? fun other => keyOf tools other == keyOf tools entry).isSome = true :=
    List.find?_isSome.mpr ⟨entry, h, beq_self_eq_true _⟩
  rw [pinAfter, Option.isSome_or, Option.isSome_map, hfind, Bool.or_true]

/-! ## One decoding -/

/-- Taking an entry in pins its key, and gives its message the pin. -/
theorem decodeEntry_of_emits (state : DecodeState) (h : emits entry.1 = true) :
    (decodeEntry tools state entry).sidecar.midPins =
        state.sidecar.midPins.insert (keyOf tools entry)
          ((state.sidecar.midPins.get (keyOf tools entry)).getD (nameOf tools entry)) ∧
      (decodeEntry tools state entry).decoded.map (·.mid) = state.decoded.map (·.mid) ++
        [(state.sidecar.midPins.get (keyOf tools entry)).getD (nameOf tools entry)] := by
  obtain ⟨rawEntry, entryIndex⟩ := entry
  rw [emits, Bool.and_eq_true, Bool.not_eq_true'] at h
  obtain ⟨hcompaction, hkind⟩ := h
  rw [decodeEntry, keyOf, nameOf, keyOf]
  rw [if_neg (by rw [hcompaction]; exact Bool.false_ne_true)]
  cases hmessage : piMessage rawEntry with
  | none =>
    rw [hmessage, Option.isSome_none, Bool.false_or] at hkind
    rw [if_pos hkind, decodeOpaqueEntry, DecodeState.take]
    exact ⟨rfl, List.map_append⟩
  | some message =>
    dsimp only
    rw [DecodeState.take]
    exact ⟨rfl, List.map_append⟩

theorem decodeEntry_of_not_emits (state : DecodeState) (h : emits entry.1 = false) :
    (decodeEntry tools state entry).sidecar = state.sidecar ∧
      (decodeEntry tools state entry).decoded = state.decoded := by
  rw [decodeEntry]
  split
  · exact ⟨rfl, rfl⟩
  · rename_i hcompaction
    rw [emits, Bool.eq_false_iff.mpr hcompaction, Bool.not_false, Bool.true_and,
      Bool.or_eq_false_iff, Option.isSome_eq_false_iff, Option.isNone_iff_eq_none] at h
    rw [h.1]
    rw [if_neg (by rw [h.2]; exact Bool.false_ne_true)]
    exact ⟨rfl, rfl⟩

theorem foldl_decodeEntry (entries : List (Json × Nat)) (state : DecodeState) :
    (∀ key, (entries.foldl (decodeEntry tools) state).sidecar.midPins.get key =
        pinAfter tools state.sidecar.midPins (entries.filter fun entry => emits entry.1) key) ∧
      (entries.foldl (decodeEntry tools) state).decoded.map (·.mid) =
        state.decoded.map (·.mid) ++ (entries.filter fun entry => emits entry.1).map fun entry =>
          (pinAfter tools state.sidecar.midPins (entries.filter fun entry => emits entry.1)
            (keyOf tools entry)).getD (nameOf tools entry) := by
  induction entries generalizing state with
  | nil => exact ⟨fun key => (Option.or_none).symm, (List.append_nil _).symm⟩
  | cons entry entries ih =>
    obtain ⟨hpins, hmids⟩ := ih (decodeEntry tools state entry)
    rw [List.foldl_cons, List.filter_cons]
    cases hemits : emits entry.1 with
    | false =>
      obtain ⟨hsidecar, hdecoded⟩ := decodeEntry_of_not_emits tools state hemits
      rw [if_neg Bool.false_ne_true, ← hsidecar, ← hdecoded]
      exact ⟨hpins, hmids⟩
    | true =>
      obtain ⟨hsidecar, hdecoded⟩ := decodeEntry_of_emits tools state hemits
      simp only [hsidecar, pinAfter_cons] at hpins hmids
      rw [if_pos rfl]
      refine ⟨hpins, ?_⟩
      rw [hmids, hdecoded, List.map_cons, List.append_assoc, List.singleton_append]
      congr 2
      rw [pinAfter, List.find?_cons, beq_self_eq_true]
      cases state.sidecar.midPins.get (keyOf tools entry) <;> rfl

/-! ## Decodings of a session -/

/-- The entries of a decoding with the ids of their messages. -/
def namedEntries (entries : List Json) (decoded : DecodedHarnessMessages) : List (Json × String) :=
  (entries.filter emits).zip (decoded.messages.map (·.mid))

/-- Decodings, each with the sidecar of the one before. -/
def decodeCalls (prior : Option DecodeSidecar) : List (List Json) → List (List (Json × String))
  | [] => []
  | entries :: calls =>
    let decoded := decodePiWithSidecar tools entries prior
    namedEntries entries decoded :: decodeCalls (some decoded.sidecar) calls

variable (calls : List (List Json))

/-- The id under which a key was first seen. -/
def firstName (key : String) : Option String :=
  ((calls.flatMap emitted).find? fun entry => keyOf tools entry == key).map (nameOf tools)

theorem namedEntries_decodePi (entries : List Json) (prior : Option DecodeSidecar) :
    namedEntries entries (decodePiWithSidecar tools entries prior) =
      (emitted entries).map fun entry =>
        (entry.1, (pinAfter tools ((prior.map (·.midPins)).getD .empty) (emitted entries)
          (keyOf tools entry)).getD (nameOf tools entry)) := by
  have hemitted : entries.filter emits = (emitted entries).map Prod.fst := by
    conv_lhs => rw [← List.zipIdx_map_fst 0 entries, List.filter_map]
    rfl
  rw [namedEntries, decodePiWithSidecar, hemitted]
  rw [(foldl_decodeEntry tools entries.zipIdx (startState prior)).2]
  exact List.zip_map'

/-- **Every message has the id its key was first seen under.** -/
theorem decodeCalls_eq (prior : Option DecodeSidecar) (calls : List (List Json)) :
    decodeCalls tools prior calls = calls.map fun entries =>
      (emitted entries).map fun entry =>
        (entry.1, (pinAfter tools ((prior.map (·.midPins)).getD .empty) (calls.flatMap emitted)
          (keyOf tools entry)).getD (nameOf tools entry)) := by
  induction calls generalizing prior with
  | nil => rfl
  | cons entries calls ih =>
    have hpins := (foldl_decodeEntry tools entries.zipIdx (startState prior)).1
    rw [decodeCalls, List.map_cons, List.flatMap_cons]
    congr 1
    · rw [namedEntries_decodePi]
      refine List.map_congr_left fun entry hentry => ?_
      have hpin := isSome_pinAfter tools ((prior.map (·.midPins)).getD .empty) hentry
      obtain ⟨mid, hmid⟩ := Option.isSome_iff_exists.mp hpin
      rw [pinAfter_append, hmid]
      rfl
    · rw [ih]
      refine List.map_congr_left fun later _ => List.map_congr_left fun entry _ => ?_
      rw [pinAfter_append, pinAfter, Option.map_some, Option.getD_some]
      congr 3
      exact hpins _

theorem decodeCalls_none : decodeCalls tools none calls = calls.map fun entries =>
      (emitted entries).map fun entry =>
        (entry.1, (firstName tools calls (keyOf tools entry)).getD (nameOf tools entry)) := by
  rw [decodeCalls_eq]
  rfl

/-! ## Unique and stable ids -/

/-- The ids that one decoding gives are all different. -/
def IdsUnique : Prop :=
  ∀ call ∈ decodeCalls tools none calls, (call.map Prod.snd).Nodup

/-- The message of an entry has one id throughout. -/
def IdsStable : Prop :=
  ∀ call ∈ decodeCalls tools none calls, ∀ later ∈ decodeCalls tools none calls,
    ∀ p ∈ call, ∀ q ∈ later, ∀ id, p.1.stringField "id" = some id →
      q.1.stringField "id" = some id → p.2 = q.2

/-- No two entries of one decoding were first seen under one name. -/
def FirstNamesDistinct : Prop :=
  ∀ entries ∈ calls, (emitted entries).Pairwise fun a b =>
    firstName tools calls (keyOf tools a) ≠ firstName tools calls (keyOf tools b)

theorem keyOf_of_id {id : String} (h : entry.1.stringField "id" = some id) :
    keyOf tools entry = id := by
  rw [keyOf]
  cases piMessage entry.1 with
  | none =>
    rw [h, Option.getD_some]
  | some message =>
    dsimp only
    rw [piStableKey, h]
    rfl

/-- Every key of a session has a first name. -/
theorem exists_firstName {calls : List (List Json)} {entries : List Json} (h : entries ∈ calls)
    (hentry : entry ∈ emitted entries) :
    ∃ name, firstName tools calls (keyOf tools entry) = some name := by
  have hpin := isSome_pinAfter tools .empty
    (List.mem_flatMap.mpr ⟨entries, h, hentry⟩ : entry ∈ calls.flatMap emitted)
  exact Option.isSome_iff_exists.mp hpin

theorem ids_stable : IdsStable tools calls := by
  intro call hcall later hlater p hp q hq id hpId hqId
  rw [decodeCalls_none] at hcall hlater
  obtain ⟨entries, hentries, rfl⟩ := List.mem_map.mp hcall
  obtain ⟨entries', -, rfl⟩ := List.mem_map.mp hlater
  obtain ⟨a, ha, rfl⟩ := List.mem_map.mp hp
  obtain ⟨b, -, rfl⟩ := List.mem_map.mp hq
  obtain ⟨name, hname⟩ := exists_firstName tools hentries ha
  have hname' := hname
  rw [keyOf_of_id tools hpId, ← keyOf_of_id tools hqId] at hname'
  rw [hname, hname', Option.getD_some, Option.getD_some]

/-- **The ids of a session are stable, and unique exactly when no two entries of one decoding were
first seen under one name.** -/
theorem ids_unique_iff (calls : List (List Json)) :
    (IdsUnique tools calls ∧ IdsStable tools calls) ↔ FirstNamesDistinct tools calls := by
  rw [and_iff_left (ids_stable tools calls), IdsUnique, decodeCalls_none, List.forall_mem_map]
  refine forall₂_congr fun entries hentries => ?_
  rw [List.map_map, List.Nodup, List.pairwise_map]
  refine List.Pairwise.iff_of_mem fun {a b} ha hb => not_congr ?_
  obtain ⟨name, hname⟩ := exists_firstName tools hentries ha
  obtain ⟨name', hname'⟩ := exists_firstName tools hentries hb
  simp only [Function.comp_apply, hname, hname', Option.getD_some, Option.some.injEq]

/-! ## Two entries of one millisecond -/

/-- The entries with a message have ids, and different ones. -/
def MessagesIdentified (entries : List Json) : Prop :=
  ((entries.filter fun rawEntry => !isCompaction rawEntry && (piMessage rawEntry).isSome).map
      (·.stringField "id")).Nodup ∧
    ∀ rawEntry ∈ entries, isCompaction rawEntry = false → (piMessage rawEntry).isSome = true →
      (rawEntry.stringField "id").isSome = true

instance (entries : List Json) : Decidable (MessagesIdentified entries) :=
  inferInstanceAs (Decidable (_ ∧ _))

/-- A message of a user, in an entry of its own. -/
def userEntry (id text : String) (timestamp : Nat) : Json :=
  .object [("id", .string id),
    ("message", .object [("content", .string text), ("role", .string "user"),
      ("timestamp", .number (.posInt timestamp))]),
    ("type", .string "message")]

theorem ids_collide : ¬ ∀ (tools : JsonTools) (calls : List (List Json)),
    (∀ entries ∈ calls, MessagesIdentified entries) →
      IdsUnique tools calls ∧ IdsStable tools calls := by
  intro h
  have hunique := (h plainTools [[userEntry "a" "one" 42, userEntry "b" "two" 42]] (by decide)).1
  have hids : decodeCalls plainTools none [[userEntry "a" "one" 42, userEntry "b" "two" 42]] =
      [[(userEntry "a" "one" 42, "pi-ts-42"), (userEntry "b" "two" 42, "pi-ts-42")]] := by
    decide +kernel
  rw [IdsUnique, hids] at hunique
  exact absurd (hunique _ (List.mem_singleton_self _)) (by decide)

end Pi
end MagicContext.Codec
