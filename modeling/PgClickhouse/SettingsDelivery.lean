import PgClickhouse.BinaryQuery
import PgClickhouse.HttpRequest
import PgClickhouse.Keyed

/-!
# Delivery of settings

What the server ends up with of the settings of a statement and of the session's
database, on either driver.  The server keeps the last value of a name.

The binary driver delivers every list.  The HTTP driver formats each pair, and the
database header, through a buffer of 512 bytes and sends `name=value` with the first `=`
as the separator, so what arrives is always a pair that satisfies `Fits`.

* `arrive_fits`: whatever is sent over HTTP, the pair that arrives fits.
* `settings_delivered_iff`: both drivers deliver exactly when every pair that is sent
  over HTTP fits, and so does the database name.
-/

namespace PgClickhouse

/-- The value in effect: the last one sent. -/
def inEffect (name : Bytes) (sent : kv_list) : Option Bytes :=
  (Keyed.findLast Prod.fst name sent).map Prod.snd

/-- The value a list of distinct names gives a name. -/
def valueOf (name : Bytes) (settings : kv_list) : Option Bytes :=
  (Keyed.find Prod.fst name settings).map Prod.snd

/-- The driver's value for a pinned name, the user's for any other. -/
def intended (pinned settings : kv_list) (name : Bytes) : Option Bytes :=
  (valueOf name pinned).or (valueOf name settings)

/-- The database a server reads from the request, empty without the header. -/
def receivedDatabase (headers : List Bytes) : Bytes :=
  (headers.head?.map HttpText.fieldValue).getD []

/-- The HTTP driver delivers the settings and the database.  The URL also names the query
id, which a setting of that name replaces. -/
def HttpDelivers (t : CurlUrl) (base_url dbname : Bytes) (query_id : QueryId)
    (req : ch_http_request) : Prop :=
  let curl := setup_curl t ⟨base_url, some dbname⟩ req query_id
  (∀ name, inEffect name (t.params curl.url) =
    (intended req.overrides req.query.settings name).or
      (if name = ascii "query_id" then some query_id.val else none)) ∧
  receivedDatabase curl.headers = dbname

/-- The binary driver delivers the settings and the database. -/
def BinaryDelivers (version : ch_server_version) (timezone dbname : Bytes) (query : ch_query) :
    Prop :=
  (∀ name, inEffect name
      ((ch_binary_query_settings version timezone query).map fun s => (s.name, s.value)) =
    intended (binary_overrides version timezone) query.settings name) ∧
  chc_client_opts_database (some dbname) = dbname

/-- A pair that survives the buffer and the separator: the name has no `=`, and the pair
takes at most 511 bytes, where an empty value needs no `=`. -/
def Fits (setting : Bytes × Bytes) : Prop :=
  (61 : UInt8) ∉ setting.1 ∧
    (setting.1.length + 1 + setting.2.length ≤ 511 ∨
      setting.1.length = 511 ∧ setting.2 = [])

/-- A database name that survives the buffer and the header. -/
def DatabaseFits (dbname : Bytes) : Prop :=
  dbname.length ≤ 488 ∧ HttpText.Deliverable dbname

instance (setting : Bytes × Bytes) : Decidable (Fits setting) :=
  inferInstanceAs (Decidable (_ ∧ _))

instance (value : Bytes) : Decidable (HttpText.Deliverable value) :=
  inferInstanceAs (Decidable (_ ∧ _ ∧ _))

instance (dbname : Bytes) : Decidable (DatabaseFits dbname) :=
  inferInstanceAs (Decidable (_ ∧ _))

/-! ## One pair -/

/-- The pair that arrives of a setting. -/
def arrive (setting : Bytes × Bytes) : Bytes × Bytes :=
  HttpText.pairAt (temp_buf (setting_text setting))

theorem setting_text_eq (setting : Bytes × Bytes) :
    setting_text setting = setting.1 ++ 61 :: setting.2 := by
  rw [setting_text, List.append_assoc]
  rfl

theorem temp_buf_setting_text_ne_nil (setting : Bytes × Bytes) :
    temp_buf (setting_text setting) ≠ [] := by
  rw [temp_buf, setting_text_eq]
  simp

/-- Whatever is sent, the pair that arrives fits. -/
theorem arrive_fits (setting : Bytes × Bytes) : Fits (arrive setting) := by
  have cut : (temp_buf (setting_text setting)).length ≤ 511 := List.length_take_le _ _
  obtain ⟨plain, sides⟩ := HttpText.pairAt_spec (temp_buf (setting_text setting))
  refine ⟨plain, ?_⟩
  unfold arrive
  rcases sides with whole | ⟨whole, empty⟩
  · rw [whole, List.length_append, List.length_cons] at cut
    exact .inl (by omega)
  · rw [whole] at cut
    rw [empty]
    rcases Nat.lt_or_eq_of_le cut with short | full
    · refine .inl ?_
      rw [List.length_nil]
      omega
    · exact .inr ⟨full, rfl⟩

/-- A pair that fits arrives as it is. -/
theorem arrive_of_fits {setting : Bytes × Bytes} (fits : Fits setting) :
    arrive setting = setting := by
  obtain ⟨plain, short | ⟨full, empty⟩⟩ := fits
  · have kept : temp_buf (setting.1 ++ 61 :: setting.2) = setting.1 ++ 61 :: setting.2 := by
      refine List.take_of_length_le ?_
      rw [List.length_append, List.length_cons]
      omega
    rw [arrive, setting_text_eq, kept, HttpText.pairAt_append_of_not_mem plain,
      HttpText.pairAt_cons_self, List.append_nil]
  · have kept : temp_buf (setting.1 ++ 61 :: setting.2) = setting.1 ++ [] := by
      rw [temp_buf, ← full, List.take_left, List.append_nil]
    rw [arrive, setting_text_eq, kept, HttpText.pairAt_append_of_not_mem plain]
    exact Prod.ext (List.append_nil _) empty.symm

/-! ## The whole query -/

/-- The pairs of a request, in the order they are sent. -/
def sentPairs (query_id : QueryId) (req : ch_http_request) : kv_list :=
  [(ascii "query_id", query_id.val)] ++ sent_settings req ++ req.overrides

theorem params_foldl (t : CurlUrl) (url : t.Url) (settings : kv_list) :
    t.params (settings.foldl
      (fun url setting => t.append_query url (temp_buf (setting_text setting))) url) =
        t.params url ++ settings.map arrive := by
  induction settings generalizing url with
  | nil => simp
  | cons setting settings ih =>
      rw [List.foldl_cons, ih, t.params_append_query _ (temp_buf_setting_text_ne_nil setting),
        List.map_cons, List.append_assoc]
      rfl

theorem params_setup_curl (t : CurlUrl) (conn : ch_http_connection_t) (query_id : QueryId)
    (req : ch_http_request) :
    t.params (setup_curl t conn req query_id).url = (sentPairs query_id req).map arrive := by
  simp only [setup_curl, params_foldl, sentPairs, List.map_append, List.map_singleton]
  rw [t.params_append_query _ (temp_buf_setting_text_ne_nil _), t.params_set_url,
    List.nil_append]
  rfl

theorem query_id_fits (query_id : QueryId) : Fits (ascii "query_id", query_id.val) := by
  have plain : (61 : UInt8) ∉ ascii "query_id" := by decide
  refine ⟨plain, .inl ?_⟩
  have name : (ascii "query_id").length = 8 := by decide
  rw [name, query_id.property]
  decide

theorem inEffect_append (name : Bytes) (xs ys : kv_list) :
    inEffect name (xs ++ ys) = (inEffect name ys).or (inEffect name xs) := by
  rw [inEffect, Keyed.findLast_append, inEffect, inEffect]
  cases Keyed.findLast Prod.fst name ys <;> rfl

theorem inEffect_of_nodup {settings : kv_list} (distinct : (settings.map Prod.fst).Nodup)
    (name : Bytes) : inEffect name settings = valueOf name settings := by
  rw [inEffect, Keyed.findLast_eq_find distinct, valueOf]

theorem valueOf_of_mem {settings : kv_list} (distinct : (settings.map Prod.fst).Nodup)
    {setting : Bytes × Bytes} (member : setting ∈ settings) :
    valueOf setting.1 settings = some setting.2 := by
  rw [valueOf, Keyed.find_of_mem distinct member]
  rfl

theorem valueOf_singleton (name key value : Bytes) :
    valueOf name [(key, value)] = if name = key then some value else none := by
  rcases eq_or_ne name key with rfl | differ
  · simp [valueOf, Keyed.find]
  · simp [valueOf, Keyed.find, differ, Ne.symm differ]

theorem is_overridden_iff (req : ch_http_request) (name : Bytes) :
    is_overridden req name = true ↔ (valueOf name req.overrides).isSome := by
  rw [valueOf, Option.isSome_map, ← Option.ne_none_iff_isSome, ne_eq, Keyed.find_eq_none]
  simp [is_overridden]

/-- Among the settings that are sent, a pinned name has no value. -/
theorem valueOf_sent_settings {req : ch_http_request}
    (distinct : (req.query.settings.map Prod.fst).Nodup) (name : Bytes) :
    (valueOf name req.overrides).or (valueOf name (sent_settings req)) =
      intended req.overrides req.query.settings name := by
  rw [intended]
  cases pinned : valueOf name req.overrides with
  | some value => rfl
  | none =>
      have free : is_overridden req name = false := by
        rw [← Bool.not_eq_true, is_overridden_iff, pinned]
        exact Bool.false_ne_true
      rw [Option.none_or, Option.none_or, valueOf, sent_settings, Keyed.find_filter distinct,
        valueOf]
      cases found : Keyed.find Prod.fst name req.query.settings with
      | none => rfl
      | some setting =>
          have named := Keyed.key_of_find found
          simp [Option.filter, named, free]

/-- The HTTP driver delivers the settings exactly when every pair fits. -/
theorem http_settings_iff (t : CurlUrl) (conn : ch_http_connection_t) (query_id : QueryId)
    {req : ch_http_request} (distinct : (req.query.settings.map Prod.fst).Nodup)
    (pins : (req.overrides.map Prod.fst).Nodup) :
    (∀ name, inEffect name (t.params (setup_curl t conn req query_id).url) =
      (intended req.overrides req.query.settings name).or
        (if name = ascii "query_id" then some query_id.val else none)) ↔
      ∀ setting ∈ sent_settings req ++ req.overrides, Fits setting := by
  rw [params_setup_curl]
  constructor
  · intro delivered setting member
    have wanted : intended req.overrides req.query.settings setting.1 = some setting.2 := by
      rcases List.mem_append.mp member with sent | pinned
      · obtain ⟨listed, free⟩ := List.mem_filter.mp sent
        have unpinned : valueOf setting.1 req.overrides = none := by
          rw [← Option.not_isSome_iff_eq_none, ← is_overridden_iff]
          simpa using free
        rw [intended, unpinned, Option.none_or, valueOf_of_mem distinct listed]
      · rw [intended, valueOf_of_mem pins pinned]
        rfl
    have effect := delivered setting.1
    rw [wanted, Option.some_or] at effect
    obtain ⟨arrived, found, value⟩ := Option.map_eq_some_iff.mp effect
    obtain ⟨listed, name⟩ := Keyed.mem_of_findLast found
    obtain ⟨origin, -, rfl⟩ := List.mem_map.mp listed
    have same : arrive origin = setting := Prod.ext name value
    exact same ▸ arrive_fits origin
  · intro fits name
    have whole : (sentPairs query_id req).map arrive = sentPairs query_id req := by
      rw [sentPairs, List.append_assoc, List.map_append, List.map_singleton,
        arrive_of_fits (query_id_fits query_id)]
      exact congrArg _ ((List.map_congr_left fun setting member =>
        arrive_of_fits (fits setting member)).trans (List.map_id _))
    have sentDistinct : ((sent_settings req).map Prod.fst).Nodup :=
      distinct.sublist (List.filter_sublist.map _)
    have first : inEffect name [(ascii "query_id", query_id.val)] =
        if name = ascii "query_id" then some query_id.val else none := by
      have single : ([(ascii "query_id", query_id.val)].map Prod.fst).Nodup :=
        List.nodup_singleton _
      rw [inEffect_of_nodup single, valueOf_singleton]
    rw [whole, sentPairs, inEffect_append, inEffect_append, first,
      inEffect_of_nodup sentDistinct, inEffect_of_nodup pins, ← Option.or_assoc,
      valueOf_sent_settings distinct]

/-! ## The database -/

theorem http_database_iff (t : CurlUrl) (base_url dbname : Bytes) (query_id : QueryId)
    (req : ch_http_request) :
    receivedDatabase (setup_curl t ⟨base_url, some dbname⟩ req query_id).headers = dbname ↔
      DatabaseFits dbname := by
  have header : temp_buf (DATABASE_HEADER ++ ascii ": " ++ dbname) =
      DATABASE_HEADER ++ 58 :: 32 :: dbname.take 488 := by
    have front : (DATABASE_HEADER ++ ascii ": ").length = 23 := by decide
    rw [temp_buf, List.take_append, front, List.take_of_length_le (by rw [front]; decide),
      List.append_assoc]
    rfl
  have plain : (58 : UInt8) ∉ DATABASE_HEADER := by decide
  rw [receivedDatabase, setup_curl]
  simp only [List.head?_cons, Option.map_some, Option.getD_some]
  rw [header, HttpText.fieldValue_of_field plain, HttpText.trim_take_eq_iff, DatabaseFits]

/-! ## Both drivers -/

theorem ite_sublist {α : Type} (c : Prop) [Decidable c] (l : List α) :
    (if c then l else []).Sublist l := by
  split
  · exact List.Sublist.refl l
  · exact List.nil_sublist l

theorem nodup_native_overrides (version : ch_server_version) (timezone : Bytes) :
    ((native_overrides version timezone).map Prod.fst).Nodup := by
  have names : ((native_overrides version timezone).map Prod.fst).Sublist
      [ascii "default_format", ascii "output_format_native_encode_types_in_binary_format",
        ascii "output_format_native_write_json_as_string", ascii "session_timezone"] := by
    have pins : (native_overrides version timezone).Sublist
        ((ascii "default_format", ascii "Native") ::
          ([(ascii "output_format_native_encode_types_in_binary_format", ascii "0")] ++
            [(ascii "output_format_native_write_json_as_string", ascii "1")] ++
              [(ascii "session_timezone", timezone)])) :=
      (((ite_sublist _ _).append (ite_sublist _ _)).append (ite_sublist _ _)).cons_cons _
    exact pins.map Prod.fst
  exact List.Nodup.sublist names (by decide +kernel)

theorem nodup_binary_overrides (version : ch_server_version) (timezone : Bytes) :
    ((binary_overrides version timezone).map Prod.fst).Nodup := by
  have names : ((binary_overrides version timezone).map Prod.fst).Sublist
      [ascii "output_format_native_write_json_as_string", ascii "session_timezone"] := by
    have pins : (binary_overrides version timezone).Sublist
        ([(ascii "output_format_native_write_json_as_string", ascii "1")] ++
          [(ascii "session_timezone", timezone)]) :=
      (ite_sublist _ _).append (ite_sublist _ _)
    exact pins.map Prod.fst
  exact List.Nodup.sublist names (by decide +kernel)

theorem binaryDelivers (version : ch_server_version) (timezone dbname : Bytes)
    {query : ch_query} (distinct : (query.settings.map Prod.fst).Nodup) :
    BinaryDelivers version timezone dbname query := by
  refine ⟨fun name => ?_, rfl⟩
  have listed : (ch_binary_query_settings version timezone query).map
      (fun s => (s.name, s.value)) = query.settings ++ binary_overrides version timezone := by
    rw [ch_binary_query_settings, List.map_map]
    exact List.map_id _
  rw [listed, inEffect_append, inEffect_of_nodup distinct,
    inEffect_of_nodup (nodup_binary_overrides version timezone), intended]

/-- Both drivers deliver the settings of a statement and the session's database exactly
when, of what the HTTP driver sends, every pair and the database name fit. -/
theorem settings_delivered_iff (t : CurlUrl) (base_url dbname : Bytes) (query_id : QueryId)
    (version : ch_server_version) (timezone : Bytes) (req : ch_http_request)
    (distinct : (req.query.settings.map Prod.fst).Nodup)
    (pins : req.overrides = native_overrides version timezone ∨
      req.overrides = tsv_overrides) :
    (HttpDelivers t base_url dbname query_id req ∧
      BinaryDelivers version timezone dbname req.query) ↔
      (∀ setting ∈ sent_settings req ++ req.overrides, Fits setting) ∧
        DatabaseFits dbname := by
  have pinsDistinct : (req.overrides.map Prod.fst).Nodup := by
    rcases pins with native | tsv
    · exact native ▸ nodup_native_overrides version timezone
    · rw [tsv]
      decide +kernel
  have http : HttpDelivers t base_url dbname query_id req ↔
      (∀ setting ∈ sent_settings req ++ req.overrides, Fits setting) ∧ DatabaseFits dbname :=
    and_congr (http_settings_iff t ⟨base_url, some dbname⟩ query_id distinct pinsDistinct)
      (http_database_iff t base_url dbname query_id req)
  rw [http]
  exact and_iff_left (binaryDelivers version timezone dbname distinct)

/-- Two settings, one of them pinned, on a 25.3 server. -/
theorem settings_delivered_iff_pinned :
    HttpDelivers percentEncoded (ascii "http://localhost:8123/") (ascii "default")
        ⟨ascii "6f1c5f0a-4a5b-4a83-9a53-0d2a3a4a5b6c", by decide +kernel⟩
        ⟨⟨ascii "SELECT 1", [], [(ascii "final", ascii "1"),
          (ascii "session_timezone", ascii "Asia/Tokyo")], none⟩,
          native_overrides ⟨25, 3, 1⟩ (ascii "UTC"), true⟩ ∧
      BinaryDelivers ⟨25, 3, 1⟩ (ascii "UTC") (ascii "default")
        ⟨ascii "SELECT 1", [], [(ascii "final", ascii "1"),
          (ascii "session_timezone", ascii "Asia/Tokyo")], none⟩ :=
  (settings_delivered_iff percentEncoded _ _ _ ⟨25, 3, 1⟩ (ascii "UTC") _ (by decide +kernel)
    (.inl rfl)).mpr ⟨by decide +kernel, by decide +kernel⟩

/-- A value of 600 bytes. -/
def longValue : Bytes := List.replicate 600 97

/-- The value of a setting is cut on HTTP: what arrives always fits, and this does not. -/
theorem settings_delivery_cut :
    ¬ (HttpDelivers percentEncoded (ascii "http://localhost:8123/") (ascii "default")
        ⟨ascii "6f1c5f0a-4a5b-4a83-9a53-0d2a3a4a5b6c", by decide +kernel⟩
        ⟨⟨ascii "SELECT 1", [], [(ascii "log_comment", longValue)], none⟩,
          native_overrides ⟨25, 3, 1⟩ (ascii "UTC"), true⟩ ∧
      BinaryDelivers ⟨25, 3, 1⟩ (ascii "UTC") (ascii "default")
        ⟨ascii "SELECT 1", [], [(ascii "log_comment", longValue)], none⟩) := by
  rintro ⟨⟨delivered, -⟩, -⟩
  have fits := (http_settings_iff percentEncoded _ _ (by decide +kernel)
    (nodup_native_overrides _ _)).mp delivered (ascii "log_comment", longValue) (by decide +kernel)
  revert fits
  decide +kernel

end PgClickhouse
