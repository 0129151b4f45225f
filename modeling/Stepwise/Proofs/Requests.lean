import Stepwise.Proofs.Atomicity
import Stepwise.Proofs.Substitution

/-!
# What requests are made of

A request is made from the fields of a step, or the step is refused with the field that is to blame.
What is made is well formed: the method is one of those there are, every header has one value,
whatever the case of its name, and no value can end the line it stands on, since it holds no control
character but the tab. The control characters above 128 are sent as two bytes above 128, and pass.

* `Request.MadeFrom`: what a request has from its step.
* `Request.Violates`: steps no request can be made from.
* `Request.ofStep_gives`, `Request.Violates.refused`: what is made, and what is refused.
* `Engine.requests_wellFormed`: the same of dispatched steps, which are refused before anything is
  sent.
-/

namespace Stepwise

namespace Entries

variable {α : Type}

/-- Of the values stored one after the other the last one under a name counts. -/
theorem get?_extend (entries more : Entries α) (name : String) :
    (entries.extend more).get? name =
      ((more.filter (·.1 = name)).getLast?.map Prod.snd).or (entries.get? name) := by
  induction more generalizing entries with
  | nil => rfl
  | cons e rest ih =>
    show ((entries.insert e.1 e.2).extend rest).get? name = _
    rw [ih, get?_insert, List.filter_cons]
    by_cases h : e.1 = name
    · rw [if_pos h, if_pos (decide_eq_true h), List.getLast?_cons]
      cases hlast : (rest.filter (·.1 = name)).getLast? with
      | none => rfl
      | some last => rfl
    · rw [if_neg h, if_neg (by simpa using h)]

theorem extend_append (entries more more' : Entries α) :
    entries.extend (more ++ more') = (entries.extend more).extend more' := List.foldl_append

theorem mem_insert {entries : Entries α} {name : String} {v : α} {e : String × α}
    (h : e ∈ entries.insert name v) : e = (name, v) ∨ e ∈ entries := by
  induction entries with
  | nil => exact .inl (List.mem_singleton.mp h)
  | cons d rest ih =>
    rw [insert] at h
    split at h
    · rename_i hname
      rw [hname] at h
      exact (List.mem_cons.mp h).imp_right (List.mem_cons_of_mem _)
    · rcases List.mem_cons.mp h with rfl | h
      · exact .inr List.mem_cons_self
      · exact (ih h).imp_right (List.mem_cons_of_mem _)

theorem mem_extend {entries more : Entries α} {e : String × α} (h : e ∈ entries.extend more) :
    e ∈ entries ∨ e ∈ more := by
  induction more generalizing entries with
  | nil => exact .inl h
  | cons d rest ih =>
    rcases ih h with h | h
    · exact (mem_insert h).elim (fun h => .inr (h ▸ List.mem_cons_self)) .inl
    · exact .inr (List.mem_cons_of_mem _ h)

end Entries

namespace Http

/-! ## Values of headers -/

/-- No control character below 128 but the tab. -/
def IsPlain (text : String) : Prop :=
  ∀ c ∈ text.toList, c = '\t' ∨ 32 ≤ c.toNat ∧ c.toNat ≠ 127

theorem isHeaderValue_iff {value : String} : isHeaderValue value = true ↔ IsPlain value := by
  simp only [isHeaderValue, isHeaderValueChar, IsPlain, List.all_eq_true, Bool.or_eq_true,
    beq_iff_eq, Bool.and_eq_true, decide_eq_true_eq, bne_iff_ne]

/-- In the bytes that are sent there is no control character but the tab either. -/
theorem IsPlain.bytes {text : String} (h : IsPlain text) :
    ∀ b ∈ Utf8.encode text, b.toNat = 9 ∨ 32 ≤ b.toNat ∧ b.toNat ≠ 127 := by
  intro b hb
  obtain ⟨c, hc, hb⟩ := List.mem_flatMap.mp hb
  have hplain : c.toNat = 9 ∨ 32 ≤ c.toNat ∧ c.toNat ≠ 127 :=
    (h c hc).imp_left (congrArg Char.toNat)
  by_cases hascii : c.toNat < 128
  · rw [Utf8.utf8EncodeChar_of_ascii hascii, List.mem_singleton] at hb
    rw [hb, Utf8.toNat_toUInt8 hascii]
    exact hplain
  · have hwide := Utf8.le_of_mem_utf8EncodeChar (Nat.not_lt.mp hascii) b hb
    omega

theorem IsPlain.of_mem_intercalate {sep : String} {texts : List String}
    (h : IsPlain (String.intercalate sep texts)) : ∀ text ∈ texts, IsPlain text := by
  induction texts with
  | nil => exact List.forall_mem_nil _
  | cons text rest ih =>
    cases rest with
    | nil =>
      rw [String.intercalate_singleton] at h
      exact List.forall_mem_singleton.mpr h
    | cons text' rest =>
      rw [String.intercalate_cons_cons] at h
      refine List.forall_mem_cons.mpr ⟨fun c hc => h c ?_, ih fun c hc => h c ?_⟩
      · simp only [String.toList_append, List.mem_append, hc, true_or]
      · simp only [String.toList_append, List.mem_append, hc, or_true]

/-- The names and the values of cookies are plain if the header is. -/
theorem isPlain_of_cookies {jar : Entries Value} (h : IsPlain (cookies jar)) :
    ∀ cookie ∈ jar, IsPlain cookie.1 ∧ IsPlain (scalar cookie.2) := by
  intro cookie hcookie
  have hpiece : IsPlain (cookie.1 ++ "=" ++ scalar cookie.2) :=
    h.of_mem_intercalate _ (List.mem_map.mpr ⟨_, List.mem_map_of_mem hcookie, rfl⟩)
  refine ⟨fun c hc => hpiece c ?_, fun c hc => hpiece c ?_⟩
  · simp only [String.toList_append, List.mem_append, hc, true_or]
  · simp only [String.toList_append, List.mem_append, hc, or_true]

namespace Request

/-! ## What a request has from its step -/

/-- The last of the headers in their field with this name, in whatever case. -/
def lastHeader (s : Step) (name : String) : Option String :=
  ((s.entries "headers").filter fun entry => Text.asciiLower entry.1 = name).getLast?.map
    fun entry => entry.2.display

/-- The value of the header with this name in small letters: fields of their own come first. -/
def headerOf (s : Step) (name : String) : Option String :=
  if name = "cookie" ∧ s.entries "cookies" ≠ [] then some (cookies (s.entries "cookies"))
  else if name = "content-type" then (s.text? "content_type").or (lastHeader s name)
  else lastHeader s name

/-- The body of a request: data, or else a form, or else a text. Nothing counts as no data. -/
inductive BodyOf (s : Step) : Option Body → Prop
  | json {v : Value} : s.given? "json" = some v → BodyOf s (some (.json v))
  | form {entries : Entries Value} :
    s.given? "json" = none → s.given? "data" = some (.dict entries) →
      BodyOf s (some (.form (Http.form (pairs entries))))
  | text {v : Value} :
    s.given? "json" = none → s.given? "data" = some v → v.entries? = none →
      BodyOf s (some (.text v.display))
  | none : s.given? "json" = none → s.given? "data" = none → BodyOf s none

/-- The request is made from the fields of the step, and is well formed. -/
structure MadeFrom (s : Step) (r : Request) : Prop where
  method : r.method = methodOf s
  supported : r.method ∈ methods
  header : ∀ name, r.headers.get? (Text.asciiLower name) = headerOf s (Text.asciiLower name)
  caseless : ∀ name ∈ r.headers.names, Text.asciiLower name = name
  single : r.headers.names.Nodup
  plain : ∀ entry ∈ r.headers, IsPlain entry.2
  plainBytes : ∀ entry ∈ r.headers, ∀ b ∈ Utf8.encode entry.2,
    b.toNat = 9 ∨ 32 ≤ b.toNat ∧ b.toNat ≠ 127
  plainHeaders : ∀ entry ∈ s.entries "headers",
    isHeaderName entry.1 = true ∧ IsPlain entry.2.display
  plainType : ∀ value ∈ s.text? "content_type", IsPlain value
  plainCookies : ∀ entry ∈ s.entries "cookies", IsPlain entry.1 ∧ IsPlain (scalar entry.2)
  timeout : r.timeout = s.number? "timeout"
  lasting : ∀ t ∈ r.timeout, t.isFinite = true ∧ 0 < t
  resultVariable : r.resultVariable = (s.text? "return_var").getD responseVariable
  identifier : isIdentifier r.resultVariable = true
  unreserved : r.resultVariable ∉ reservedVariables
  body : BodyOf s r.body

/-- No request can be made from the step, since one of its fields is not as it must be. -/
inductive Violates (s : Step) : Prop
  | method : methodOf s ∉ methods → Violates s
  | header {entry : String × Value} : entry ∈ s.entries "headers" →
    ¬(isHeaderName entry.1 = true ∧ IsPlain entry.2.display) → Violates s
  | contentType {value : String} : s.text? "content_type" = some value → ¬IsPlain value → Violates s
  | cookie {entry : String × Value} : entry ∈ s.entries "cookies" →
    ¬(IsPlain entry.1 ∧ IsPlain (scalar entry.2)) → Violates s
  | timeout {t : Float} : s.number? "timeout" = some t → ¬(t.isFinite = true ∧ 0 < t) → Violates s
  | identifier : isIdentifier ((s.text? "return_var").getD responseVariable) = false → Violates s
  | reserved : (s.text? "return_var").getD responseVariable ∈ reservedVariables → Violates s

theorem MadeFrom.not_violates {s : Step} {r : Request} (h : MadeFrom s r) : ¬Violates s := by
  intro hv
  cases hv with
  | method hmethod => exact hmethod (h.method ▸ h.supported)
  | header hentry hbad => exact hbad (h.plainHeaders _ hentry)
  | contentType hvalue hbad => exact hbad (h.plainType _ hvalue)
  | cookie hentry hbad => exact hbad (h.plainCookies _ hentry)
  | timeout ht hbad => exact hbad (h.lasting _ (h.timeout ▸ ht))
  | identifier hbad =>
    rw [← h.resultVariable, h.identifier] at hbad
    cases hbad
  | reserved hbad => exact h.unreserved (h.resultVariable ▸ hbad)

/-! ## Headers -/

/-- The headers in the order in which they are set. -/
def headerPairs (s : Step) : List (String × String) :=
  ((s.entries "headers").map fun entry => (Text.asciiLower entry.1, entry.2.display)) ++
    ((s.text? "content_type").map fun value => ("content-type", value)).toList ++
      if s.entries "cookies" = [] then [] else [("cookie", cookies (s.entries "cookies"))]

theorem setHeader_eq_ok {field name value : String} {headers hs : Entries String}
    (h : setHeader field name value headers = .ok hs) :
    IsPlain value ∧ hs = headers.insert (Text.asciiLower name) value := by
  unfold setHeader at h
  split at h
  · rename_i hvalue
    exact ⟨isHeaderValue_iff.mp hvalue, (Except.ok.inj h).symm⟩
  · cases h

theorem headersOf_eq_ok {headers hs : Entries String} {entries : Entries Value}
    (h : headersOf headers entries = .ok hs) :
    (∀ entry ∈ entries, isHeaderName entry.1 = true ∧ IsPlain entry.2.display) ∧
      hs = headers.extend
        (entries.map fun entry => (Text.asciiLower entry.1, entry.2.display)) := by
  induction entries generalizing headers with
  | nil => exact ⟨List.forall_mem_nil _, (Except.ok.inj h).symm⟩
  | cons entry rest ih =>
    obtain ⟨name, v⟩ := entry
    rw [headersOf] at h
    split at h
    · rename_i hname
      obtain ⟨headers', hset, h⟩ := Except.bind_eq_ok.mp h
      obtain ⟨hvalue, rfl⟩ := setHeader_eq_ok hset
      obtain ⟨hrest, rfl⟩ := ih h
      exact ⟨List.forall_mem_cons.mpr ⟨⟨hname, hvalue⟩, hrest⟩, rfl⟩
    · cases h

theorem allHeaders_eq_ok {s : Step} {hs : Entries String} (h : allHeaders s = .ok hs) :
    (∀ entry ∈ s.entries "headers", isHeaderName entry.1 = true ∧ IsPlain entry.2.display) ∧
      (∀ value ∈ s.text? "content_type", IsPlain value) ∧
      (s.entries "cookies" ≠ [] → IsPlain (cookies (s.entries "cookies"))) ∧
      hs = Entries.ofPairs (headerPairs s) := by
  obtain ⟨written, hwritten, h⟩ := Except.bind_eq_ok.mp h
  obtain ⟨hheaders, rfl⟩ := headersOf_eq_ok hwritten
  -- The cookies go last, whether or not a content type comes before them.
  have hlast {typed : Entries String} (h : (if (s.entries "cookies").isEmpty then .ok typed
      else setHeader "cookies" "cookie" (cookies (s.entries "cookies")) typed) = .ok hs) :
      (s.entries "cookies" ≠ [] → IsPlain (cookies (s.entries "cookies"))) ∧
        hs = typed.extend (if s.entries "cookies" = [] then []
          else [("cookie", cookies (s.entries "cookies"))]) := by
    by_cases hjar : s.entries "cookies" = []
    · rw [if_pos (List.isEmpty_iff.mpr hjar)] at h
      rw [if_pos hjar]
      exact ⟨fun hne => absurd hjar hne, (Except.ok.inj h).symm⟩
    · rw [if_neg (by simpa using hjar)] at h
      rw [if_neg hjar]
      obtain ⟨hplain, rfl⟩ := setHeader_eq_ok h
      exact ⟨fun _ => hplain, rfl⟩
  -- The content type is set behind the headers, if there is one.
  rw [headerPairs, Entries.ofPairs, Entries.extend_append, Entries.extend_append]
  refine ⟨hheaders, ?_⟩
  cases hvalue : s.text? "content_type" with
  | none =>
    rw [hvalue] at h
    exact ⟨fun _ hnone => (nomatch hnone), hlast h⟩
  | some value =>
    rw [hvalue] at h
    obtain ⟨typed, htyped, h⟩ := Except.bind_eq_ok.mp h
    obtain ⟨hplain, rfl⟩ := setHeader_eq_ok htyped
    exact ⟨fun _ h => Option.some.inj h ▸ hplain, hlast h⟩

/-- Headers by the names they are set under. -/
theorem get?_headerPairs (s : Step) (name : String) :
    (Entries.ofPairs (headerPairs s)).get? name = headerOf s name := by
  have hwritten : (((s.entries "headers").map fun entry =>
      (Text.asciiLower entry.1, entry.2.display)).filter (·.1 = name)).getLast?.map Prod.snd =
        lastHeader s name := by
    rw [List.filter_map, List.getLast?_map, Option.map_map]
    rfl
  rw [Entries.ofPairs, Entries.get?_extend, Entries.get?, Option.or_none, headerPairs,
    List.filter_append, List.filter_append, List.getLast?_append, List.getLast?_append,
    Option.map_or, Option.map_or, hwritten, headerOf]
  -- By the name that is looked up: the cookies are set last, and the content type before them.
  by_cases hcookie : name = "cookie"
  · subst hcookie
    by_cases hjar : s.entries "cookies" = []
    · cases s.text? "content_type" with
      | none => simp [hjar]
      | some value => simp [hjar]
    · simp [hjar]
  · have hjar : (if s.entries "cookies" = [] then [] else
        [("cookie", cookies (s.entries "cookies"))]).filter (·.1 = name) = [] := by
      split
      · rfl
      · simp [Ne.symm hcookie]
    rw [hjar, if_neg fun h => hcookie h.1]
    by_cases htype : name = "content-type"
    · subst htype
      cases s.text? "content_type" with
      | none => simp
      | some value => simp
    · cases s.text? "content_type" with
      | none => simp [htype]
      | some value => simp [htype, Ne.symm htype]

theorem mem_headerPairs {s : Step} {pair : String × String} (h : pair ∈ headerPairs s) :
    (∃ entry ∈ s.entries "headers", pair = (Text.asciiLower entry.1, entry.2.display)) ∨
      (∃ value ∈ s.text? "content_type", pair = ("content-type", value)) ∨
      s.entries "cookies" ≠ [] ∧ pair = ("cookie", cookies (s.entries "cookies")) := by
  rcases List.mem_append.mp h with h | h
  · rcases List.mem_append.mp h with h | h
    · obtain ⟨entry, hentry, rfl⟩ := List.mem_map.mp h
      exact .inl ⟨entry, hentry, rfl⟩
    · obtain ⟨value, hvalue, rfl⟩ := Option.map_eq_some_iff.mp (Option.mem_toList.mp h)
      exact .inr (.inl ⟨value, hvalue, rfl⟩)
  · split at h
    · cases h
    · rename_i hjar
      exact .inr (.inr ⟨hjar, List.mem_singleton.mp h⟩)

/-! ## Requests -/

theorem bodyOf_isBody (s : Step) : BodyOf s (bodyOf s) := by
  unfold bodyOf
  cases hjson : s.given? "json" with
  | some v => exact .json hjson
  | none =>
    cases hdata : s.given? "data" with
    | none => exact .none hjson hdata
    | some v =>
      cases v with
      | dict entries => exact .form hjson hdata
      | null | bool | int | float | str | list => exact .text hjson hdata rfl

/-- A request is made from the fields of its step, and is well formed. -/
theorem ofStep_gives (s : Step) : Except.GivesOnly (MadeFrom s) (ofStep s) := by
  unfold ofStep
  refine .bind fun _ => ?_
  extract_lets method timeout resultVariable withUrl withMethod
  -- What follows is checked alike whichever way the address was read.
  have hu (hmethod : method ∈ methods) (url : Url) :
      Except.GivesOnly (MadeFrom s) (withUrl url) := by
    refine .bind_of fun headers hheaders => .check (fun _ h => nomatch h) fun htimeout => ?_
    refine .check (fun _ h => nomatch h) fun hidentifier => ?_
    refine .check (fun _ h => nomatch h) fun hreserved => .pure ?_
    obtain ⟨hfields, htype, hjar, rfl⟩ := allHeaders_eq_ok hheaders
    have hset {entry : String × String} (h : entry ∈ Entries.ofPairs (headerPairs s)) :=
      mem_headerPairs ((Entries.mem_extend h).resolve_left List.not_mem_nil)
    have hplain (entry) (hentry : entry ∈ Entries.ofPairs (headerPairs s)) : IsPlain entry.2 := by
      -- A header comes from the fields, from the content type or from the cookies.
      rcases hset hentry with ⟨header, hheader, rfl⟩ | ⟨value, hvalue, rfl⟩ | ⟨hne, rfl⟩
      · exact (hfields header hheader).2
      · exact htype value hvalue
      · exact hjar hne
    exact {
      method := rfl
      supported := hmethod
      header := fun name => get?_headerPairs s _
      caseless := fun name hname => by
        obtain ⟨entry, hentry, rfl⟩ := List.mem_map.mp hname
        rcases hset hentry with ⟨_, -, rfl⟩ | ⟨_, -, rfl⟩ | ⟨-, rfl⟩
        · exact Text.asciiLower_asciiLower _
        · exact show Text.asciiLower "content-type" = "content-type" by decide
        · exact show Text.asciiLower "cookie" = "cookie" by decide
      single := Entries.nodup_extend (show (Entries.names []).Nodup from List.nodup_nil) _
      plain := hplain
      plainBytes := fun entry hentry => (hplain entry hentry).bytes
      plainHeaders := hfields
      plainType := htype
      plainCookies := fun cookie hcookie =>
        isPlain_of_cookies (hjar (List.ne_nil_of_mem hcookie)) cookie hcookie
      timeout := rfl
      lasting := fun t ht => by
        rw [show timeout = some t from ht] at htimeout
        simpa using htimeout
      resultVariable := rfl
      identifier := by simpa using hidentifier
      unreserved := by simpa using hreserved
      body := bodyOf_isBody s }
  refine .check (fun _ h => nomatch h) fun hmethod => ?_
  replace hmethod : method ∈ methods := by simpa using hmethod
  dsimp only [withMethod]
  split
  · exact .bind fun url => hu hmethod url
  · exact .bind fun url => hu hmethod url

/-- The step is refused with one of its fields to blame. -/
def Refused (c : Cause) : Prop := ∃ field reason, c = .invalidField "http_request" field reason

theorem setHeader_refused (field name value : String) (headers : Entries String) :
    Except.FailsOnly Refused (setHeader field name value headers) := by
  unfold setHeader
  split
  · exact .ok _
  · exact .error ⟨_, _, rfl⟩

theorem headersOf_refused (headers : Entries String) (entries : Entries Value) :
    Except.FailsOnly Refused (headersOf headers entries) := by
  induction entries generalizing headers with
  | nil => exact .ok _
  | cons entry rest ih =>
    obtain ⟨name, v⟩ := entry
    rw [headersOf]
    split
    · exact .bind (setHeader_refused _ _ _ _) fun headers _ => ih headers
    · exact .error ⟨_, _, rfl⟩

theorem allHeaders_refused (s : Step) : Except.FailsOnly Refused (allHeaders s) := by
  unfold allHeaders
  refine .bind (headersOf_refused _ _) fun headers _ => ?_
  extract_lets jar withJar
  have hj (headers : Entries String) : Except.FailsOnly Refused (withJar headers) := by
    dsimp only [withJar]
    split
    · exact .pure _
    · exact setHeader_refused _ _ _ _
  split
  · exact .bind (setHeader_refused _ _ _ _) fun headers _ => hj headers
  · exact .bind (.pure _) fun headers _ => hj headers

theorem ofStep_refused (s : Step) : Except.FailsOnly Refused (ofStep s) := by
  have hi {α : Type} {field reason : String} :
      Except.FailsOnly Refused (invalid field reason : Except Cause α) := .error ⟨_, _, rfl⟩
  have hcheck : Except.FailsOnly Refused
      (checkFields Action.Kind.httpRequest.fields Action.Kind.httpRequest.name s) := by
    unfold checkFields
    split
    · exact .error ⟨_, _, rfl⟩
    · exact .ok _
  unfold ofStep
  refine .bind hcheck fun _ _ => ?_
  extract_lets method timeout resultVariable withUrl withMethod
  have hu (url : Url) : Except.FailsOnly Refused (withUrl url) := by
    refine .bind (allHeaders_refused s) fun headers _ => ?_
    exact .guard hi (.guard hi (.guard hi (.pure _)))
  refine .guard hi ?_
  dsimp only [withMethod]
  split
  · exact .bind (.pure _) fun url _ => hu url
  · exact .bind hi fun url _ => hu url

/-- Where one of the fields is not as it must be, the step is refused. -/
theorem Violates.refused {s : Step} (h : Violates s) : ∃ c, ofStep s = .error c ∧ Refused c := by
  cases hs : ofStep s with
  | ok r => exact absurd h (ofStep_gives s r hs).not_violates
  | error c => exact ⟨c, rfl, ofStep_refused s c hs⟩

/-- The control characters of Unicode. -/
def IsControl (c : Char) : Prop := c.toNat < 32 ∨ 127 ≤ c.toNat ∧ c.toNat < 160

/-- A control character above 128 passes: a header can hold the one that is called next line. -/
theorem ofStep_next_line :
    let s : Step := ⟨[("action", .str "http_request"), ("url", .str "http://localhost:9"),
      ("headers", .dict [("X-A", .str "a\u0085b")])]⟩
    ∃ r value, ofStep s = .ok r ∧ r.headers.get? "x-a" = some value ∧
      ∃ c ∈ value.toList, IsControl c ∧ c ≠ '\t' := by
  intro s
  have hvalue : ((ofStep s).toOption.bind fun r => r.headers.get? "x-a") = some "a\u0085b" := by
    decide +kernel
  cases hs : ofStep s with
  | error c =>
    rw [hs] at hvalue
    cases hvalue
  | ok r =>
    rw [hs] at hvalue
    exact ⟨r, _, rfl, hvalue, '\u0085', by decide, .inr (by decide), by decide⟩

end Request

end Http

/-! ## Dispatched steps -/

/-- No wait may be begun. -/
def Watch.waitless : Watch Unit where
  allowsWait _ _ := False

namespace Engine

open Http (Request)

variable {τ : Type} {e : Engine} {s : Step} {world : World τ}

/-- Nothing is waited for while a step is prepared. -/
theorem prepare_waitless (e : Engine) (s : Step) (world : World τ) (r : Run) (t : τ) (w : Wait)
    (x : w.Answer) : Move.wait w x ∉ (e.prepare s).run.moves world r t := by
  have h : Attempt.Keeps .waitless (fun _ _ => True) (fun _ _ => True) () (e.prepare s) :=
    prepare_keeps trivial ⟨trivial, fun _ => rfl⟩ trivial (fun _ _ => trivial) fun _ _ _ => trivial
  intro hmem
  exact Process.Keeps.permits_of_mem h (Process.path_moves world _ r t) hmem

/-- Where preparing a step fails, dispatching it makes no other moves. -/
theorem moves_dispatch_refused {r : Run} {t : τ} {c : Cause}
    (h : ((e.prepare s).run.run world r t).1 = .error c) :
    (e.dispatch s).moves world r t = (e.prepare s).run.moves world r t := by
  rw [dispatch_eq, dispatchWith]
  show (Process.bind _ _).moves _ _ _ = _
  rw [Process.moves_bind, h]
  exact List.append_nil _

/-- Every request is made from the fields of its step and well formed, with no control character
below 128 in a header but the tab. Where the method, a header, the timeout or the variable for the
response is not as it must be, no request is made: the step is refused with the field that is to
blame, and if it is dispatched, it ends so before anything is sent. -/
theorem requests_wellFormed (hw : world.OnlyCancels) (e : Engine) (r : Run) (t : τ) :
    (∀ s q, Request.ofStep s = .ok q → Request.MadeFrom s q) ∧
    (∀ s, Request.Violates s →
      ∃ field reason, Request.ofStep s = .error (.invalidField "http_request" field reason)) ∧
    ∀ s d s', (world.meanwhile r t).1.cancelled = false → e.actionOf s = .ok d →
      d.handler = .builtin .httpRequest → e.HandedOver d r.store s s' → Request.Violates s' →
        ∃ field reason b t',
          (e.dispatch s).run world r t =
            (e.failure s.action? (.invalidField "http_request" field reason), r.marked b, t') ∧
          ∀ w x, Move.wait w x ∉ (e.dispatch s).moves world r t := by
  refine ⟨Request.ofStep_gives, fun s hs => ?_, fun s d s' hr hd hk hhand hs => ?_⟩
  · obtain ⟨_, hc, field, reason, rfl⟩ := hs.refused
    exact ⟨field, reason, hc⟩
  · -- The check stands between reading the fields and the first wait.
    obtain ⟨c, hc, field, reason, rfl⟩ := hs.refused
    have hstore : (world.meanwhile r t).1.store = r.store :=
      (hw.meanwhile r t).elim (congrArg Run.store) (congrArg Run.store)
    have hcheck : d.handler.check s' = .error (.invalidField "http_request" field reason) := by
      rw [hk]
      exact Except.map_eq_error.mpr (Except.map_eq_error.mpr hc)
    have hrefuses :
        e.Refuses (world.meanwhile r t).1 s (.invalidField "http_request" field reason) :=
      .rejected hr hd (hstore ▸ hhand) hcheck
    obtain ⟨b, t', hrun⟩ := run_dispatch_refused hw hrefuses
    refine ⟨field, reason, b, t', hrun, fun w x => ?_⟩
    obtain ⟨_, _, hprepare⟩ := run_prepare_eq hw e s r t
    rw [moves_dispatch_refused (by rw [hprepare]; exact preparation_eq_error.mpr hrefuses)]
    exact prepare_waitless e s world r t w x

/-- Of two values under one name the last one counts, and the field for the content type goes before
them. A content type with a line end in it is refused, and nothing is sent. -/
theorem requests_wellFormed_headers :
    let accepted : Step := ⟨[("action", .str "http_request"), ("url", .str "http://localhost:9"),
      ("content_type", .str "text/csv"),
      ("headers", .dict [("X-A", .int 1), ("Content-Type", .null), ("x-a", .bool true)])]⟩
    let refused : Step := ⟨[("action", .str "http_request"), ("url", .str "x"),
      ("content_type", .str "a\r\nX: 1")]⟩
    let e : Engine := {}
    let r := Run.create "headers" {} e.config
    let world := World.answering Wait.quiet
    world.OnlyCancels ∧
      (∃ q, Request.ofStep accepted = .ok q ∧ Request.MadeFrom accepted q ∧
        q.headers = [("x-a", "true"), ("content-type", "text/csv")]) ∧
      ∃ field reason b t',
        (e.dispatch refused).run world r () =
          (e.failure (some "http_request") (.invalidField "http_request" field reason),
            r.marked b, t') ∧
        ∀ w x, Move.wait w x ∉ (e.dispatch refused).moves world r () := by
  intro accepted refused e r world
  have hw : world.OnlyCancels := ⟨fun _ _ => .inl rfl, fun _ _ _ => .inl rfl⟩
  obtain ⟨hmade, hviolates, hdispatch⟩ := requests_wellFormed hw e r ()
  refine ⟨hw, ?_, ?_⟩
  · have hheaders : (Request.ofStep accepted).toOption.map (·.headers) =
        some [("x-a", "true"), ("content-type", "text/csv")] := by
      decide +kernel
    cases hq : Request.ofStep accepted with
    | error c =>
      rw [hq] at hheaders
      cases hheaders
    | ok q =>
      rw [hq] at hheaders
      exact ⟨q, rfl, hmade accepted q hq, Option.some.inj hheaders⟩
  · have hurl : Template.resolve [] .preserve (.str "x") = .ok (.str "x") :=
      Template.resolve_str_plain [] .preserve (Template.plain_of_dollar_notMem (by decide))
    have htype : Template.resolve [] .preserve (.str "a\r\nX: 1") = .ok (.str "a\r\nX: 1") :=
      Template.resolve_str_plain [] .preserve (Template.plain_of_dollar_notMem (by decide))
    have hfields : e.fieldsRead (.ofKind .httpRequest) [] refused.fields =
        .ok refused.fields.tail := by
      show ((Template.resolve [] .preserve (.str "x")).bind fun url =>
        (Template.resolve [] .preserve (.str "a\r\nX: 1")).bind fun value =>
          .ok [("url", url), ("content_type", value)]) = _
      rw [hurl, htype]
      rfl
    have hbad : Request.Violates refused :=
      .contentType rfl fun h => absurd (h '\n' (by decide)) (by decide)
    exact hdispatch refused (.ofKind .httpRequest) refused rfl rfl rfl ⟨_, hfields, rfl⟩ hbad

end Engine

end Stepwise
