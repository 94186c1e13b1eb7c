/-
What a cookie jar holds after a history of requests.

Nothing here is said about the tables of a jar: what it answers is read off the requests that it
has been given since it was made.

* `Cookie.Sets` — a text sets a name to a value; `Cookie.read?_eq_some_iff` — and this is what is
  read from it;
* `CookieJar.Accepts`, `CookieJar.Kept` — after a history cookies are accepted, and a value is the
  last one that was stored for a host under a name;
* `CookieJar.accepting_after_iff`, `CookieJar.get?_after_iff` — the jar knows both, by induction on
  the history, one request at its end at a time;
* **`CookieJar.answer_after`** — the answers of a jar with any history.
-/
import LazyEngine.Proofs.Services.Histories
import LazyEngine.Proofs.Services.Tables
import LazyEngine.Proofs.Text.Cutting
import LazyEngine.Proofs.Text.Order
import LazyEngine.Services.Cookies

namespace LazyEngine

open Text

/-! ### Cookie texts -/

namespace Cookie

/-- The text up to its first semicolon, or all of it if it has none. -/
def Front (text : String) (front : List Char) : Prop :=
  ';' ∉ front ∧ ∃ attributes, text.toList = front ++ attributes ∧ ∀ c ∈ attributes.head?, c = ';'

/-- Before its first semicolon the text has a name, an equals sign, which is the first one, and a
value. -/
def Divides (text : String) (name value : List Char) : Prop :=
  Front text (name ++ '=' :: value) ∧ '=' ∉ name

/-- The text gives the value to the name, both without the blanks at their ends. -/
def Sets (text name value : String) : Prop :=
  ∃ n v, Divides text n v ∧ Trims n name.toList ∧ Trims v value.toList ∧ name ≠ ""

theorem front_iff {text : String} {front : List Char} :
    Front text front ↔ text.toList.takeWhile (· != ';') = front :=
  takeWhile_ne_eq_iff.symm

/-- A text is divided in at most one way. -/
theorem Divides.eq {text : String} {n v : List Char} (h : Divides text n v) :
    let pair := text.toList.takeWhile (· != ';')
    '=' ∈ pair ∧ pair.takeWhile (· != '=') = n ∧ (pair.dropWhile (· != '=')).drop 1 = v := by
  intro pair
  have hpair : pair = n ++ '=' :: v := front_iff.mp h.1
  have hname : ∀ c ∈ n, (c != '=') = true := fun c hc => by
    simpa using fun heq : c = '=' => h.2 (heq ▸ hc)
  have hequals : ∀ c ∈ ('=' :: v).head?, (c != '=') = false := by simp
  rw [hpair, takeWhile_boundary hname hequals, dropWhile_boundary hname hequals]
  simp

theorem exists_divides {text : String} (h : '=' ∈ text.toList.takeWhile (· != ';')) :
    ∃ n v, Divides text n v := by
  obtain ⟨n, v, hpair, hn⟩ := List.eq_append_cons_of_mem h
  exact ⟨n, v, front_iff.mpr hpair, hn⟩

theorem read?_of_divides {text : String} {n v : List Char} (h : Divides text n v) :
    read? text = if (trim n).isEmpty then none
      else some (String.ofList (trim n), String.ofList (trim v)) := by
  obtain ⟨hmem, hn, hv⟩ := h.eq
  simp only [read?, List.contains_eq_mem, hmem, hn, hv, decide_true, Bool.not_true,
    Bool.false_eq_true, if_false]

theorem exists_divides_of_read? {text : String} (h : (read? text).isSome = true) :
    ∃ n v, Divides text n v := by
  refine exists_divides ?_
  by_contra hmem
  simp [read?, hmem] at h

/-- **What is read from a cookie text** is what it sets. -/
theorem read?_eq_some_iff {text name value : String} :
    read? text = some (name, value) ↔ Sets text name value := by
  constructor
  · intro h
    obtain ⟨n, v, hdivides⟩ := exists_divides_of_read? (by rw [h]; rfl)
    rw [read?_of_divides hdivides] at h
    split at h
    · cases h
    · rename_i hempty
      obtain ⟨rfl, rfl⟩ : String.ofList (trim n) = name ∧ String.ofList (trim v) = value := by
        simpa using h
      refine ⟨n, v, hdivides, ?_, ?_, fun hname => hempty ?_⟩
      · rw [String.toList_ofList]; exact trims_trim n
      · rw [String.toList_ofList]; exact trims_trim v
      · have hnil := congrArg String.toList hname
        rw [String.toList_ofList] at hnil
        rw [hnil]; rfl
  · rintro ⟨n, v, hdivides, hn, hv, hname⟩
    have hempty : ¬ (trim n).isEmpty = true := by
      rw [trim_eq_iff.mpr hn, List.isEmpty_iff]
      exact fun h => hname (String.toList_eq_nil_iff.mp h)
    rw [read?_of_divides hdivides, if_neg hempty, trim_eq_iff.mpr hn, trim_eq_iff.mpr hv,
      String.ofList_toList, String.ofList_toList]

/-- A cookie is read from a text exactly when something else than blanks comes before its first
equals sign. -/
theorem read?_isSome_iff {text : String} :
    (read? text).isSome = true ↔ ∃ n v, Divides text n v ∧ ∃ c ∈ n, isBlank c = false := by
  constructor
  · intro h
    obtain ⟨n, v, hdivides⟩ := exists_divides_of_read? h
    refine ⟨n, v, hdivides, ?_⟩
    by_contra hblank
    rw [read?_of_divides hdivides, trim_eq_nil_iff.mpr (by simpa [AreBlank] using hblank)] at h
    cases h
  · rintro ⟨n, v, hdivides, c, hc, hblank⟩
    have hempty : ¬ (trim n).isEmpty = true := fun h => by
      have := trim_eq_nil_iff.mp (List.isEmpty_iff.mp h) c hc
      simp [this] at hblank
    rw [read?_of_divides hdivides, if_neg hempty]
    rfl

end Cookie

/-! ### Histories -/

namespace CookieJar

/-- The jar after a history of requests, beginning with a new one. -/
def after (history : List CookieRequest) : CookieJar :=
  history.foldl (fun jar request => (jar.answer request).2) { hosts := .empty }

/-- Whenever cookies were turned off they were turned on again. -/
def Accepts (history : List CookieRequest) : Prop :=
  ∀ before later, history = before ++ .setAccepting false :: later → .setAccepting true ∈ later

/-- The request stores the value for the host under the name, cookies being accepted. -/
def Stores (history : List CookieRequest) (request : CookieRequest) (host name value : String) :
    Prop :=
  ∃ text, request = .set host text ∧ Accepts history ∧ Cookie.Sets text name value

/-- A request of the history stored the value, and no later one removed it or stored another. -/
def Kept (history : List CookieRequest) (host name value : String) : Prop :=
  ∃ before request later, history = before ++ request :: later ∧
    Stores before request host name value ∧ .removeAll ∉ later ∧
    ∀ between other rest, later = between ++ other :: rest →
      ∀ v, ¬ Stores (before ++ request :: between) other host name v

theorem after_concat (history : List CookieRequest) (request : CookieRequest) :
    after (history ++ [request]) = ((after history).answer request).2 := by
  simp [after, List.foldl_append]

theorem accepts_concat {history : List CookieRequest} {request : CookieRequest} :
    Accepts (history ++ [request]) ↔
      request = .setAccepting true ∨ request ≠ .setAccepting false ∧ Accepts history := by
  constructor
  · intro h
    refine or_iff_not_imp_left.mpr fun hon => ⟨?_, fun before later heq => ?_⟩
    · rintro rfl
      exact absurd (h history [] rfl) List.not_mem_nil
    · have hmem := h before (later ++ [request]) (by simp [heq])
      exact (List.mem_append.mp hmem).resolve_right fun hlast =>
        hon (List.mem_singleton.mp hlast).symm
  · intro h before later heq
    rcases append_singleton_eq_iff.mp heq with ⟨-, rfl, -⟩ | ⟨later', rfl, hhistory⟩
    · simp at h
    · rcases h with rfl | ⟨-, h⟩
      · simp
      · exact List.mem_append_left _ (h before later' hhistory)

theorem kept_concat {history : List CookieRequest} {request : CookieRequest}
    {host name value : String} :
    Kept (history ++ [request]) host name value ↔
      Stores history request host name value ∨
      Kept history host name value ∧ request ≠ .removeAll ∧
        ∀ v, ¬ Stores history request host name v := by
  constructor
  · rintro ⟨before, first, later, heq, hstores, hremove, hlast⟩
    rcases append_singleton_eq_iff.mp heq with ⟨rfl, rfl, -⟩ | ⟨later, rfl, rfl⟩
    · exact .inl hstores
    · refine .inr ⟨⟨before, first, later, rfl, hstores, fun h => hremove (by simp [h]),
        fun between other rest h => ?_⟩, fun h => hremove (by simp [h]),
        hlast later request [] rfl⟩
      exact hlast between other (rest ++ [request]) (by simp [h])
  · rintro (hstores | ⟨⟨before, first, later, rfl, hstores, hremove, hlast⟩, hnot, hlater⟩)
    · exact ⟨history, request, [], rfl, hstores, List.not_mem_nil, by simp⟩
    · refine ⟨before, first, later ++ [request], by simp, hstores, by simp [hremove, hnot.symm],
        fun between other rest heq => ?_⟩
      rcases append_singleton_eq_iff.mp heq with ⟨rfl, rfl, -⟩ | ⟨rest', -, hbetween⟩
      · exact hlater
      · exact hlast between other rest' hbetween

/-! ### One request -/

theorem stores_iff {history : List CookieRequest} {request : CookieRequest}
    {host name value : String} :
    Stores history request host name value ↔
      ∃ text, request = .set host text ∧ Accepts history ∧
        Cookie.read? text = some (name, value) := by
  simp only [Stores, Cookie.read?_eq_some_iff]

/-- A request that keeps nothing leaves the jar as it was. -/
theorem set_eq_self {jar : CookieJar} {host text : String}
    (h : jar.accepting = true → Cookie.read? text = none) : jar.set host text = (false, jar) := by
  cases haccepting : jar.accepting with
  | false => simp [set, haccepting]
  | true => simp [set, haccepting, h haccepting]

theorem set_fst_iff {jar : CookieJar} {host text : String} :
    (jar.set host text).1 = true ↔
      jar.accepting = true ∧ (Cookie.read? text).isSome = true := by
  cases haccepting : jar.accepting <;> cases hread : Cookie.read? text <;>
    simp [set, haccepting, hread]

theorem accepting_answer (jar : CookieJar) (request : CookieRequest) :
    (jar.answer request).2.accepting = true ↔
      request = .setAccepting true ∨
        request ≠ .setAccepting false ∧ jar.accepting = true := by
  cases request with
  | setAccepting accepting => cases accepting <;> simp [answer, setAccepting]
  | set host text =>
    cases haccepting : jar.accepting <;> cases hread : Cookie.read? text <;>
      simp [answer, set, haccepting, hread]
  | accepting | header _ | hasCookies | removeAll => simp [answer, removeAll]

/-- A cookie that is kept takes the place of the one of its host and name. -/
theorem get?_set {jar : CookieJar} {host text name value : String}
    (haccepting : jar.accepting = true) (hread : Cookie.read? text = some (name, value))
    (otherHost otherName : String) :
    ((jar.set host text).2.ofHost otherHost).get? otherName =
      if otherHost = host ∧ otherName = name then some value
      else (jar.ofHost otherHost).get? otherName := by
  simp only [set, haccepting, hread, Bool.not_true, Bool.false_eq_true, if_false, ofHost,
    Table.get?_insert]
  by_cases hhost : otherHost = host
  · subst hhost
    simp [Table.get?_insert]
  · simp [hhost]

/-- **What one request does to a jar**: the step lemma of `get?_after_iff`. -/
theorem get?_answer_iff {history : List CookieRequest} {jar : CookieJar}
    (haccepts : jar.accepting = true ↔ Accepts history) (request : CookieRequest)
    (host name value : String) :
    ((jar.answer request).2.ofHost host).get? name = some value ↔
      Stores history request host name value ∨
      (jar.ofHost host).get? name = some value ∧ request ≠ .removeAll ∧
        ∀ v, ¬ Stores history request host name v := by
  simp only [stores_iff, ← haccepts]
  cases request with
  | set otherHost text =>
    rcases em (jar.accepting = true → Cookie.read? text = none) with hnone | hsome
    · have hread : ∀ pair, jar.accepting = true → Cookie.read? text ≠ some pair :=
        fun pair haccepting => by simp [hnone haccepting]
      simp +contextual [answer, set_eq_self hnone, hread]
    · obtain ⟨haccepting, hread⟩ := Classical.not_imp.mp hsome
      obtain ⟨⟨n, v⟩, hread⟩ := Option.ne_none_iff_exists'.mp hread
      simp only [answer, get?_set haccepting hread]
      by_cases hplace : host = otherHost ∧ name = n
      · simp [hplace, haccepting, hread]
      · have hplace' : otherHost = host → n ≠ name :=
          fun hhost hname => hplace ⟨hhost.symm, hname.symm⟩
        simp +contextual [hplace, hplace', hread]
  | removeAll => simp [answer, removeAll, ofHost, Table.get?, Table.empty]
  | setAccepting _ | accepting | header _ | hasCookies => simp [answer, setAccepting, ofHost]

/-! ### The whole history -/

theorem accepting_after_iff (history : List CookieRequest) :
    (after history).accepting = true ↔ Accepts history := by
  induction history using List.reverseRecOn with
  | nil => simp [after, Accepts]
  | append_singleton history request ih =>
    rw [after_concat, accepting_answer, accepts_concat, ih]

/-- What a jar holds for a host under a name is what the history kept. -/
theorem get?_after_iff (history : List CookieRequest) (host name value : String) :
    ((after history).ofHost host).get? name = some value ↔ Kept history host name value := by
  induction history using List.reverseRecOn with
  | nil => simp [after, ofHost, Table.get?, Table.empty, Kept]
  | append_singleton history request ih =>
    rw [after_concat, get?_answer_iff (accepting_after_iff history), kept_concat, ih]

theorem header?_isSome_iff {jar : CookieJar} {host : String} :
    (jar.header? host).isSome = true ↔ (jar.ofHost host).isEmpty = false := by
  rw [← Bool.not_eq_true, Table.isEmpty_iff, ← Table.sorted_eq_nil_iff, header?]
  split <;> simp_all

/-- There are cookies when some host has a cookie, not only a table for cookies. -/
theorem hasCookies_iff {jar : CookieJar} :
    jar.hasCookies = true ↔ ∃ host, (jar.header? host).isSome = true := by
  simp only [header?_isSome_iff, hasCookies, List.any_eq_true, Prod.exists, Table.mem_entries_iff,
    Bool.not_eq_true']
  constructor
  · rintro ⟨host, cookies, hget, hcookies⟩
    exact ⟨host, by rw [ofHost, hget]; exact hcookies⟩
  · rintro ⟨host, hcookies⟩
    cases hget : jar.hosts.get? host with
    | none => rw [ofHost, hget] at hcookies; cases hcookies
    | some cookies => rw [ofHost, hget] at hcookies; exact ⟨host, cookies, hget, hcookies⟩

/-- **The answers of a cookie jar.** Whatever it was asked before, it keeps a cookie exactly when
cookies are accepted and the text has a name, and is left as it was otherwise; it gives a host its
cookies in the order of the bytes of their names, which are the last values that the history stored
for that host; and it has cookies exactly when it has a line for some host. -/
theorem answer_after (history : List CookieRequest) :
    (∀ host text, ∃ kept, ((after history).answer (.set host text)).1 = .flag kept ∧
      (kept = true ↔ Accepts history ∧
        ∃ name value, Cookie.Divides text name value ∧ ∃ c ∈ name, isBlank c = false) ∧
      (kept = false → ((after history).answer (.set host text)).2 = after history)) ∧
    (∀ host, ∃ cookies : List (String × String),
      cookies.Pairwise (fun c d => bytes c.1 < bytes d.1) ∧
      (∀ name value, (name, value) ∈ cookies ↔ Kept history host name value) ∧
      ((after history).answer (.header host)).1 = .text? (if cookies = [] then none
        else some ("; ".intercalate (cookies.map fun c => c.1 ++ "=" ++ c.2)))) ∧
    ∃ any, ((after history).answer .hasCookies).1 = .flag any ∧
      (any = true ↔
        ∃ host line, ((after history).answer (.header host)).1 = .text? (some line)) := by
  -- Each answer is read off the jar that the history leaves.
  refine ⟨fun host text => ⟨((after history).set host text).1, rfl, ?_, fun hkept => ?_⟩,
    fun host => ⟨((after history).ofHost host).sorted, ?_, fun name value => ?_, ?_⟩,
    (after history).hasCookies, rfl, ?_⟩
  · rw [set_fst_iff, accepting_after_iff, Cookie.read?_isSome_iff]
  · -- Had a cookie been read while they are accepted, it would have been kept.
    refine congrArg Prod.snd (set_eq_self fun haccepting => ?_)
    have hnot : ¬ ((after history).set host text).1 = true := by simp [hkept]
    rw [set_fst_iff] at hnot
    exact Option.not_isSome_iff_eq_none.mp fun hread => hnot ⟨haccepting, hread⟩
  · exact (Table.pairwise_sorted _).imp bytes_lt
  · rw [Table.mem_sorted_iff, get?_after_iff]
  · simp only [answer, header?, List.isEmpty_iff]
  · rw [hasCookies_iff]
    simp only [answer, Value.text?.injEq, Option.isSome_iff_exists]

end CookieJar

end LazyEngine
