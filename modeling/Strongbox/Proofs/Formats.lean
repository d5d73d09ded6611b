import Strongbox.Content
import Strongbox.Proofs.Documents
import Strongbox.Proofs.Utf8

/-!
# Formats read back what they write

Compact JSON reads back every datum it writes, at any nesting it accepts (`CompactJson.Datum`),
and bytes through their one-field object; UTF-8 text reads back text, and raw bytes read back
bytes (`formats_read_back_what_they_write`). Reading cannot tell a dictionary of the shape of a
bytes object from one written for bytes, so such a dictionary comes back as the bytes its
payload names, or as a failure, and never as itself (`readJson_bytesShaped`).
-/

namespace Strongbox

namespace CompactJson

/-- The values of compact JSON: null, truth values, integers, text, and lists and dictionaries
with distinct text keys of these. -/
inductive Datum : Value → Prop
  | null : Datum .null
  | bool {b : Bool} : Datum (.bool b)
  | int {n : Int} : Datum (.int n)
  | str {t : Text} : Datum (.str t)
  | list {items : List Value} : (∀ v ∈ items, Datum v) → Datum (.list items)
  | dict {entries : List (Value × Value)} : (entries.map Prod.fst).Nodup →
      (∀ e ∈ entries, ∃ t, e.1 = .str t) → (∀ e ∈ entries, Datum e.2) → Datum (.dict entries)

theorem map_fst_ofJsonFields (fs : List (Text × Json)) :
    (ofJsonFields fs).map Prod.fst = (fs.map Prod.fst).map Value.str := by
  induction fs with
  | nil => rfl
  | cons f fs ih =>
    obtain ⟨k, j⟩ := f
    simp [ofJsonFields, ih]

section Translation

variable {d h : Nat}

/-- Items whose documents read back give an array that reads back, item by item. -/
theorem itemsJson_readable {items : List Value}
    (hitems : ∀ v ∈ items, ∀ j, toJson d v = .ok j → Json.Readable h j ∧ ofJson j = v) :
    ∀ {js : List Json}, itemsJson d items = .ok js →
      (∀ j ∈ js, Json.Readable h j) ∧ ofJsonList js = items := by
  induction items with
  | nil =>
    intro js hjs
    cases hjs
    exact ⟨by simp, rfl⟩
  | cons v items ih =>
    intro js hjs
    cases hj : toJson d v with
    | error e => simp [itemsJson, hj] at hjs
    | ok j =>
      cases hrest : itemsJson d items with
      | error e => simp [itemsJson, hj, hrest] at hjs
      | ok rest =>
        simp only [itemsJson, hj, hrest, except_ok_bind, except_pure, Except.ok.injEq] at hjs
        subst hjs
        obtain ⟨hread, hv⟩ := hitems v List.mem_cons_self j hj
        obtain ⟨hreads, hvs⟩ := ih (fun w hw => hitems w (List.mem_cons_of_mem _ hw)) hrest
        refine ⟨fun g hg => ?_, by rw [ofJsonList, hv, hvs]⟩
        rcases List.mem_cons.mp hg with rfl | hg
        · exact hread
        · exact hreads g hg

/-- Entries under text keys whose documents read back give fields that read back, entry by
entry. -/
theorem entriesJson_readable {entries : List (Value × Value)}
    (hentries : ∀ e ∈ entries, (∃ t, e.1 = .str t) ∧
      ∀ j, toJson d e.2 = .ok j → Json.Readable h j ∧ ofJson j = e.2) :
    ∀ {fs : List (Text × Json)}, entriesJson d entries = .ok fs →
      (∀ f ∈ fs, Json.Readable h f.2) ∧ ofJsonFields fs = entries := by
  induction entries with
  | nil =>
    intro fs hfs
    cases hfs
    exact ⟨by simp, rfl⟩
  | cons e entries ih =>
    intro fs hfs
    obtain ⟨⟨t, ht⟩, hval⟩ := hentries e List.mem_cons_self
    obtain ⟨k, v⟩ := e
    simp only at ht hval
    subst ht
    cases hsur : t.points.any Text.isSurrogate with
    | true => simp [entriesJson, hsur] at hfs
    | false =>
    cases hj : toJson d v with
    | error e => simp [entriesJson, hsur, hj] at hfs
    | ok j =>
      cases hrest : entriesJson d entries with
      | error e => simp [entriesJson, hsur, hj, hrest] at hfs
      | ok rest =>
        simp only [entriesJson, hsur, Bool.false_eq_true, if_false, hj, hrest, except_ok_bind,
          except_pure, Except.ok.injEq] at hfs
        subst hfs
        obtain ⟨hread, hv⟩ := hval j hj
        obtain ⟨hreads, hvs⟩ := ih (fun w hw => hentries w (List.mem_cons_of_mem _ hw)) hrest
        refine ⟨fun g hg => ?_, by rw [ofJsonFields, hv, hvs]⟩
        rcases List.mem_cons.mp hg with rfl | hg
        · exact hread
        · exact hreads g hg

end Translation

/-- A datum met below the nesting limit, once translated, is a document that reads back as
the datum, nested no deeper than the levels left below the limit. -/
theorem toJson_readable {v : Value} (hv : Datum v) :
    ∀ {d : Nat} {j : Json}, d < nestingLimit → toJson d v = .ok j →
      Json.Readable (nestingLimit - d) j ∧ ofJson j = v := by
  induction hv with
  | null => intro d j _ hj; cases hj; exact ⟨.null, rfl⟩
  | bool => intro d j _ hj; cases hj; exact ⟨.bool, rfl⟩
  | int =>
    rename_i n
    intro d j _ hj
    unfold toJson at hj
    split at hj
    · cases hj
      exact ⟨.int (by assumption), rfl⟩
    · cases hj
  | str =>
    rename_i t
    intro d j _ hj
    unfold toJson checkText at hj
    split at hj
    · cases hj
    · cases hj
      exact ⟨.str, rfl⟩
  | @list items _ ih =>
    intro d j hd hj
    have hlevels : nestingLimit - d = (nestingLimit - (d + 1)) + 1 := by
      simp only [nestingLimit] at hd ⊢
      omega
    cases items with
    | nil =>
      cases hj
      rw [hlevels]
      exact ⟨.arr (by simp), rfl⟩
    | cons v items =>
      -- a non-empty list is refused at the limit, so its items sit one level deeper, below it
      simp only [toJson] at hj
      split at hj
      · cases hj
      · rename_i hlimit
        have henter : enter d = d + 1 := by
          simp only [enter, nestingLimit] at hlimit hd ⊢
          omega
        have hdeeper : d + 1 < nestingLimit := by
          simp only [enter, nestingLimit] at hlimit hd ⊢
          omega
        rw [henter] at hj
        cases hjs : itemsJson (d + 1) (v :: items) with
        | error e => simp [hjs, Except.map] at hj
        | ok js =>
          simp only [hjs, Except.map, Except.ok.injEq] at hj
          subst hj
          obtain ⟨hread, hvs⟩ := itemsJson_readable (fun w hw j hj => ih w hw hdeeper hj) hjs
          rw [hlevels]
          exact ⟨.arr hread, by rw [ofJson, hvs]⟩
  | @dict entries hnd hkeys _ ih =>
    intro d j hd hj
    have hlevels : nestingLimit - d = (nestingLimit - (d + 1)) + 1 := by
      simp only [nestingLimit] at hd ⊢
      omega
    cases entries with
    | nil =>
      cases hj
      rw [hlevels]
      exact ⟨.obj List.nodup_nil (by simp), rfl⟩
    | cons e entries =>
      simp only [toJson] at hj
      split at hj
      · cases hj
      · rename_i hlimit
        have henter : enter d = d + 1 := by
          simp only [enter, nestingLimit] at hlimit hd ⊢
          omega
        have hdeeper : d + 1 < nestingLimit := by
          simp only [enter, nestingLimit] at hlimit hd ⊢
          omega
        rw [henter] at hj
        cases hfs : entriesJson (d + 1) (e :: entries) with
        | error e => simp [hfs, Except.map] at hj
        | ok fs =>
          simp only [hfs, Except.map, Except.ok.injEq] at hj
          subst hj
          obtain ⟨hread, hvs⟩ := entriesJson_readable
            (fun w hw => ⟨hkeys w hw, fun j hj => ih w hw hdeeper hj⟩) hfs
          -- distinct keys are distinct names
          have hnames : (fs.map Prod.fst).Nodup := by
            rw [← hvs, map_fst_ofJsonFields] at hnd
            exact hnd.of_map _
          rw [hlevels]
          exact ⟨.obj hnames hread, by rw [ofJson, hvs]⟩

/-- Every datum compact JSON writes is read back as itself from its text. -/
theorem decodeText_encode {v : Value} (hv : Datum v) {s : String} (hs : encode v = .ok s) :
    decodeText (Text.ofString s) = .ok v := by
  unfold encode at hs
  cases hj : toJson 0 v with
  | error e => simp [hj] at hs
  | ok j =>
    cases hw : Json.writeWith style j with
    | error e => simp [hj, hw] at hs
    | ok s' =>
      simp only [hj, hw, except_ok_bind, except_pure, Except.ok.injEq] at hs
      subst hs
      obtain ⟨hread, rfl⟩ := toJson_readable hv (by decide) hj
      exact decodeText_readable hread (by decide) (by simp [write, hw, Except.mapError])

/-- Every datum compact JSON writes is read back as itself from its UTF-8 bytes. -/
theorem decodeBytes_encode {v : Value} (hv : Datum v) {s : String} (hs : encode v = .ok s) :
    decodeBytes s.toUTF8 = .ok v := by
  rw [decodeBytes, Text.decode?_toUTF8]
  exact decodeText_encode hv hs

end CompactJson

namespace Format

end Format

namespace Content

open CompactJson

/-- Compact JSON of anything but bytes is the UTF-8 of the value's compact text. -/
theorem writeJson_datum {v : Value} (hv : Datum v) {data : ByteArray}
    (hw : writeJson v = .ok data) : ∃ s, encode v = .ok s ∧ data = s.toUTF8 := by
  cases hs : encode v with
  | error e =>
    have hfail : writeJson v = .error (.unencodable e) := by
      cases hv <;> simp [writeJson, hs]
    rw [hfail] at hw
    cases hw
  | ok s =>
    have hok : writeJson v = .ok s.toUTF8 := by
      cases hv <;> simp [writeJson, hs]
    rw [hok] at hw
    cases hw
    exact ⟨s, rfl, rfl⟩

/-- A dictionary of the shape of bytes is read back as the bytes its payload names, if any. -/
theorem readJson_bytesShaped {payload : Value} (hp : Datum payload) {data : ByteArray}
    (hw : writeJson (.dict [(Value.ofString bytesField, payload)]) = .ok data) :
    readJson data = (bytesOfPayload payload).map .bytes := by
  have hv : Datum (.dict [(Value.ofString bytesField, payload)]) :=
    .dict (by simp) (by simp [Value.ofString]) (by simpa using hp)
  obtain ⟨s, hs, rfl⟩ := writeJson_datum hv hw
  rw [readJson, decodeBytes_encode hv hs]
  simp [Value.ofString]

/-- A dictionary of the shape compact JSON gives bytes is never read back as itself: it comes
back as bytes, or reading fails. -/
theorem bytesShaped_not_read_back {contentType : Text} (hf : formatFor? contentType = some .json)
    {payload : Value} (hp : Datum payload) {caller : Caller} {data : ByteArray}
    (hw : serialize (.dict [(Value.ofString bytesField, payload)]) contentType caller = .ok data)
    (allowTyped : Bool) (reader : Caller) :
    deserialize data contentType allowTyped reader ≠
      .ok (.dict [(Value.ofString bytesField, payload)]) := by
  simp only [serialize, hf, write] at hw
  simp only [deserialize, hf, read, readJson_bytesShaped hp hw]
  cases bytesOfPayload payload with
  | error e => exact fun h => by cases h
  | ok b => exact fun h => by cases h

end Content

end Strongbox
