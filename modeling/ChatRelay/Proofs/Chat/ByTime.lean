import Mathlib.Tactic.NormNum
import ChatRelay.Chat.Api
import ChatRelay.Proofs.Calendar.Stamps
import ChatRelay.Proofs.Chat.EventTrip
import ChatRelay.Proofs.Chat.Paging
import ChatRelay.Proofs.Store.Identifiers
import ChatRelay.Proofs.Store.Validity
/-!
# The history before a time

A request for the history gives its time in milliseconds or as an RFC 3339 text.
A text that denotes an instant is cut to the whole millisecond that contains it,
for any offset and any number of fraction digits, and the page holds the
messages of earlier milliseconds.
-/

namespace ChatRelay

open Json (Members Value membersText)
open Json.Shape (readMembers_end readMembers_field readMembers_judged)

theorem readUuid_write (u : Uuid) (rest : Bytes) :
    readUuid (Utf8.encode (Value.string u.text).write ++ rest) =
      .ok (u, rest) := by
  simp only [readUuid, Json.readOnlyString_write, bind, Except.bind,
    Uuid.parse_text]
  rfl

theorem Token.readMembers_bytes (token : Token) (huser : IsLong token.user)
    (limits : Json.Limits) (n : Nat) (rest : Bytes) :
    Token.shape.readMembers limits (n + 2) true {} (membersText true
        [("id", .string token.id.text),
          ("user_id", .number (.int token.user))] ++ 0x7D :: rest) =
      .ok (.ok ⟨some token.id, some token.user⟩, 0x7D :: rest) := by
  have hid (more : Members) : Token.shape.readMembers limits (n + 2) true {}
        (membersText true (("id", .string token.id.text) :: more) ++
          0x7D :: rest) =
      Token.shape.readMembers limits (n + 1) false ⟨some token.id, none⟩
        (membersText false more ++ 0x7D :: rest) := by
    rw [readMembers_field rfl rfl, readUuid_write]
    rfl
  have huser :
        Token.shape.readMembers limits (n + 1) false ⟨some token.id, none⟩
        (membersText false [("user_id", .number (.int token.user))] ++
          0x7D :: rest) =
      Token.shape.readMembers limits n false ⟨some token.id, some token.user⟩
        (membersText false [] ++ 0x7D :: rest) := by
    rw [readMembers_field rfl rfl, readLong, Json.readInteger_write "i64"
      huser.1 huser.2 huser.inRange (Json.stops_membersText [] rest)]
    rfl
  rw [hid, huser, readMembers_end]

/-- A written token is read back, as a JSON value and as a query parameter. -/
theorem Token.read_write {limits inner : Json.Limits}
    (hinner : limits.inner? = some inner) (hbound : 2 ≤ inner.bound)
    (token : Token) (huser : IsLong token.user) (rest : Bytes) :
    Token.shape.read limits (Utf8.encode token.toValue.write ++ rest) =
      .ok (token, rest) := by
  obtain ⟨n, hn⟩ : ∃ n, inner.bound = n + 2 := ⟨inner.bound - 2, by omega⟩
  have hmembers := Token.readMembers_bytes token huser inner n rest
  rw [Token.toValue, Json.encode_object, List.cons_append, List.append_assoc,
    List.singleton_append, Json.Shape.read_object hinner, hn]
  exact (congrArg (· >>= Token.shape.conclude) hmembers).trans rfl

namespace HistoryQuery

/-- The members of a request for the messages before a time, by ascending
name. -/
def members (token : Token) (time : Value) (limit : Nat) : Members :=
  [("auth_token", token.toValue), ("limit", .number (.int limit)),
    ("timestamp", time)]

/-- The members as a JSON value. -/
def historyRequest (token : Token) (time : Value) (limit : Nat) : Value :=
  .object (members token time limit)

variable {token : Token} {time : Value} {limit : Nat}

/-- The token and the limit are read back, then the time is judged. -/
theorem readMembers_bytes (huser : IsLong token.user)
    (hlimit : limit ≤ Text.maxNatural) (hscalar : time.depth = 0)
    (hwhole : time.Whole) {limits inner : Json.Limits}
    (hinner : limits.inner? = some inner) (hbound : 2 ≤ inner.bound) (n : Nat) :
    shape.readMembers limits (n + 3) true {}
        (membersText true (members token time limit) ++ [0x7D]) =
      .ok ((timeOf time).map fun before =>
        ⟨some token, some before, some limit⟩, [0x7D]) := by
  have htoken (more : Members) : shape.readMembers limits (n + 3) true {}
        (membersText true (("auth_token", token.toValue) :: more) ++ [0x7D]) =
      shape.readMembers limits (n + 2) false ⟨some token, none, none⟩
        (membersText false more ++ [0x7D]) := by
    rw [readMembers_field rfl rfl, Token.read_write hinner hbound token huser]
    rfl
  have hrange : Json.Number.inRange limit = true := by
    have hleast : Text.minLong = -9223372036854775808 := rfl
    simp only [Json.Number.inRange, decide_eq_true_eq]
    omega
  have hcount (more : Members) :
        shape.readMembers limits (n + 2) false ⟨some token, none, none⟩
        (membersText false (("limit", .number (.int limit)) :: more) ++
          [0x7D]) =
      shape.readMembers limits (n + 1) false ⟨some token, none, some limit⟩
        (membersText false more ++ [0x7D]) := by
    rw [readMembers_field rfl rfl, Json.readInteger_write "usize" (by omega)
      (by omega) hrange (Json.stops_membersText more [])]
    rfl
  have hvalue (rest : Bytes) (hrest : Json.Stops rest) :
      Json.readValue limits.bound none limits.depth
        (Utf8.encode time.write ++ rest) = .ok (time, rest) := by
    cases limits.depth with
    | zero => exact Json.readWith_scalar _ _ _ hscalar hwhole hrest
    | succ depth => exact Json.readWith_scalar _ _ _ hscalar hwhole hrest
  rw [members, htoken, hcount, readMembers_judged rfl rfl]
  simp only [bind, Except.bind, pure, Except.pure,
    hvalue _ (Json.stops_membersText [] [])]
  cases timeOf time with
  | error cause => rfl
  | ok before => exact readMembers_end n false _ []

theorem read_bytes (huser : IsLong token.user)
    (hlimit : limit ≤ Text.maxNatural) (hscalar : time.depth = 0)
    (hwhole : time.Whole) :
    shape.read (.ofText (historyRequest token time limit).bytes)
      (historyRequest token time limit).bytes = shape.conclude
        ((timeOf time).map fun before => ⟨some token, some before, some limit⟩,
          [0x7D]) := by
  have htext : (historyRequest token time limit).bytes =
      0x7B :: (membersText true (members token time limit) ++ [0x7D]) :=
    Json.encode_object _
  -- there is room for three members in the text
  obtain ⟨n, hn⟩ : ∃ n,
      (historyRequest token time limit).bytes.length = n + 3 := by
    have hlength :=
      (Json.length_le_membersText (members token time limit) true).1
    refine Nat.exists_eq_add_of_le' ?_
    rw [htext, List.length_cons, List.length_append]
    exact Nat.le_succ_of_le (Nat.le_add_right_of_le hlength)
  have hmembers (embedded : Json.Embedded) :=
    @readMembers_bytes token time limit huser hlimit
      hscalar hwhole ⟨n + 3, 126, embedded⟩ _ rfl (show 2 ≤ n + 3 by omega) n
  rw [Json.Limits.ofText, hn]
  generalize Json.embeddedIn _ = embedded
  have hinner : (⟨n + 3, Json.depthLimit, embedded⟩ : Json.Limits).inner? =
      some ⟨n + 3, 126, embedded⟩ := rfl
  rw [htext, Json.Shape.read_object hinner]
  exact congrArg (· >>= shape.conclude) (hmembers embedded)

theorem parse_eq_ok (huser : IsLong token.user)
    (hlimit : limit ≤ Text.maxNatural) (hscalar : time.depth = 0)
    (hwhole : time.Whole) {query : HistoryQuery} :
    shape.parse (historyRequest token time limit).bytes = .ok query ↔
      ∃ before, timeOf time = .ok before ∧ query = ⟨token, before, limit⟩ := by
  rw [Json.Shape.parse, Json.readAll, read_bytes huser hlimit hscalar hwhole]
  cases timeOf time with
  | error cause => simp [Json.Shape.conclude, Except.map, Except.bind]
  | ok before =>
      have hrecord :
        shape.conclude (.ok ⟨some token, some before, some limit⟩, [0x7D]) =
        .ok (⟨token, before, limit⟩, []) := rfl
      rw [Except.map, hrecord]
      simp [Json.readEnd, Json.skipBlanks, eq_comm]

theorem timeOf_string {text : String} {before : Int} :
    timeOf (.string text) = .ok before ↔
      Rfc3339.milliseconds text = .ok before := by
  have htime : timeOf (.string text) =
      (Rfc3339.milliseconds text).mapError fun e => .refused e.message := rfl
  rw [htime]
  cases Rfc3339.milliseconds text with
  | error e => simp [Except.mapError]
  | ok time => simp [Except.mapError]

end HistoryQuery

namespace Chat

open Rfc3339 (Denotes)

variable {now : Time} {call : Call} {room : Room} {token : Token} {time : Value}
    {limit : Nat}

/-- The request for at most `limit` messages before a time. -/
def historyRequest (call : Call) (token : Token) (time : Value) (limit : Nat) :
    Call :=
  { call with request := { call.request with
      body := (HistoryQuery.historyRequest token time limit).text } }

/-- The response to such a request, and the state it leaves. -/
def answer (now : Time) (call : Call) (room : Room) (token : Token)
    (limit : Nat) (time : Value) : Response × Room :=
  messages now (historyRequest call token time limit) room

theorem body_historyRequest :
    Utf8.ofString (historyRequest call token time limit).request.body =
    (HistoryQuery.historyRequest token time limit).bytes := by
  simp only [historyRequest, Json.Value.text, Json.Value.bytes, Utf8.ofString,
    String.toList_ofList]

/-- A good token and a time that parses get a page; nothing else changes. -/
theorem answer_page (hroom : room.fault = none) (huser : IsLong token.user)
    (htoken : (room.store.validate now token).1 = .ok ())
    (hlimit : limit ≤ Text.maxNatural) (hscalar : time.depth = 0)
    (hwhole : time.Whole) {before : Int}
    (htime : HistoryQuery.timeOf time = .ok before) :
    answer now call room token limit time =
      (page (room.store.messagesBefore before limit), room) := by
  have hparse :=
    (HistoryQuery.parse_eq_ok huser hlimit hscalar hwhole).mpr
      ⟨before, htime, rfl⟩
  have hvalidate : validate now token room = (.ok (), room) := by
    rw [validate, Store.validate_of_ok htoken]
  simp only [answer, messages, body_historyRequest, hparse, hvalidate,
    Room.reading, hroom, respondWith]

/-- A time that does not parse gets no page. -/
theorem answer_refused (huser : IsLong token.user)
    (hlimit : limit ≤ Text.maxNatural) (hscalar : time.depth = 0)
    (hwhole : time.Whole)
    (htime : ∀ before, HistoryQuery.timeOf time ≠ .ok before) :
    (answer now call room token limit time).1.code = Status.badRequest := by
  cases hparse :
    HistoryQuery.shape.parse
      (HistoryQuery.historyRequest token time limit).bytes with
  | error e =>
      simp only [answer, messages, body_historyRequest, hparse]
      rfl
  | ok query =>
      obtain ⟨before, hbefore, -⟩ :=
        (HistoryQuery.parse_eq_ok huser hlimit hscalar hwhole).mp hparse
      exact absurd hbefore (htime before)

/-- The history before a time given as a text. The text is accepted if and only
if it denotes an instant, and then the page holds the messages created in an
earlier millisecond than the one that contains the instant. All texts that
denote the instant get the same page, and so does the number of milliseconds if
the instant is a whole one. -/
theorem history_before_instant (hroom : room.fault = none)
    (huser : IsLong token.user)
    (htoken : (room.store.validate now token).1 = .ok ())
    (hall : room.store.messages.length ≤ limit)
    (hlimit : limit ≤ Text.maxNatural) (text : String) :
    ((answer now call room token limit (.string text)).1.code = Status.ok ↔
      ∃! instant, Denotes text instant) ∧
    ∀ instant, Denotes text instant →
      (∃ shown, answer now call room token limit (.string text) =
        (page shown, room) ∧
        NewestFirst shown ∧
        shown.Perm
          (room.store.messages.filter fun m => m.createdAt < ⌊instant⌋)) ∧
      (∀ other, Denotes other instant →
        answer now call room token limit (.string other) =
          answer now call room token limit (.string text)) ∧
      ∀ n : Int, instant = n →
        answer now call room token limit (.number (.int n)) =
          answer now call room token limit (.string text) := by
  have hanswer {time : Value} {before : Int} (hscalar : time.depth = 0)
      (hwhole : time.Whole) (htime : HistoryQuery.timeOf time = .ok before) :
      answer now call room token limit time =
        (page (room.store.older before), room) := by
    rw [← Store.messagesBefore_of_length_le hall]
    exact answer_page hroom huser htoken hlimit hscalar hwhole htime
  have htext {s : String} {instant : ℚ} (h : Denotes s instant) :
      answer now call room token limit (.string s) =
        (page (room.store.older ⌊instant⌋), room) :=
    hanswer rfl trivial (HistoryQuery.timeOf_string.mpr
      (Rfc3339.milliseconds_eq_ok.mpr ⟨instant, h, rfl⟩))
  refine ⟨⟨fun hok => ?_, fun ⟨instant, h, _⟩ => ?_⟩,
    fun instant h => ⟨?_, fun other hother => ?_, fun n hn => ?_⟩⟩
  -- a text that denotes no instant is refused
  · by_contra hnone
    have hrefused : (answer now call room token limit (.string text)).1.code =
        Status.badRequest := by
      refine answer_refused huser hlimit rfl trivial
        fun before hbefore => hnone ?_
      obtain ⟨instant, h, -⟩ :=
        Rfc3339.milliseconds_eq_ok.mp (HistoryQuery.timeOf_string.mp hbefore)
      exact ⟨instant, h, fun other hother => h.unique hother⟩
    exact absurd (hok.symm.trans hrefused) (by decide)
  · rw [htext h]
    exact page_code _
  · exact ⟨_, htext h, Store.newestFirst_older _ _, Store.older_perm _ _⟩
  · rw [htext hother, htext h]
  · subst hn
    have hbounds := h.natAbs_floor_lt
    rw [Int.floor_intCast] at hbounds
    have hlong : IsLong n := by
      have hlimits : Text.minLong = -9223372036854775808 ∧
        Text.maxLong = 9223372036854775807 := ⟨rfl, rfl⟩
      simp only [IsLong, hlimits]
      omega
    rw [htext h, Int.floor_intCast]
    exact hanswer rfl hlong.inRange (if_pos hlong)

/-- A time on the first of January 1970: a full hour and a fraction of a
second. -/
def sampleStamp (hour fraction : String) (zone : Rfc3339.Zone) :
    Rfc3339.Stamp :=
  ⟨"1970".toList, "01".toList, "01".toList, 'T', hour.toList, "00".toList,
    "00".toList, fraction.toList, zone⟩

theorem denotes_sample (text hour fraction : String) (zone : Rfc3339.Zone)
    (n width : Nat) {instant : ℚ}
    (hvalid : (sampleStamp hour fraction zone).Valid)
    (htext : text.toList = (sampleStamp hour fraction zone).text)
    (hseconds : (sampleStamp hour fraction zone).written.seconds = 0)
    (hfraction : Rfc3339.value fraction.toList = n ∧
      fraction.toList.length = width)
    (hinstant : instant = n / 10 ^ width * 1000) : Denotes text instant := by
  have h := hvalid.denotes htext
  have hdigits : Rfc3339.fractionOf (sampleStamp hour fraction zone).fraction =
      n / 10 ^ width := by
    rw [← hfraction.1, ← hfraction.2]
    rfl
  rw [Rfc3339.instant_eq, hseconds, hdigits, Int.zero_mul, Int.cast_zero,
    zero_add, ← hinstant] at h
  exact h

def sampleHistoryCall : Call where
  request := { method := "GET", url := "/api/v1/messages" }

def sampleHistoryToken : Token := ⟨.nil, 7⟩

/-- A room in which `sampleHistoryToken` is valid and `messages` are stored. -/
def keptRoom (messages : List Message) : Room where
  store := { tokens := [⟨sampleHistoryToken, 1000⟩], messages }

def sampleEpochRoom : Room :=
  keptRoom
    [messageAt "a" 0, messageAt "b" 1, messageAt "c" (-1), messageAt "d" 2]

/-- At a millisecond and a half after the epoch, written with two offsets, the
second millisecond is not over, and a message created in it is not returned. A
whole millisecond can also be given as a number. -/
theorem history_before_part_of_millisecond :
    sampleEpochRoom.fault = none ∧ IsLong sampleHistoryToken.user ∧
      (sampleEpochRoom.store.validate 0 sampleHistoryToken).1 = .ok () ∧
      sampleEpochRoom.store.messages.length ≤ 4 ∧ 4 ≤ Text.maxNatural ∧
      Denotes "1970-01-01T01:00:00.0015+01:00" (3 / 2) ∧
      Denotes "1970-01-01T00:00:00.00150Z" (3 / 2) ∧
      Denotes "1970-01-01T00:00:00.001Z" 1 ∧
      (∃ shown, answer 0 sampleHistoryCall sampleEpochRoom sampleHistoryToken 4
          (.string "1970-01-01T01:00:00.0015+01:00") =
            (page shown, sampleEpochRoom) ∧
        NewestFirst shown ∧ shown.Perm [messageAt "a" 0, messageAt "c" (-1)]) ∧
      answer 0 sampleHistoryCall sampleEpochRoom sampleHistoryToken 4
        (.string "1970-01-01T00:00:00.00150Z") =
        answer 0 sampleHistoryCall sampleEpochRoom sampleHistoryToken 4
          (.string "1970-01-01T01:00:00.0015+01:00") ∧
      answer 0 sampleHistoryCall sampleEpochRoom sampleHistoryToken 4
        (.number (.int 1)) =
        answer 0 sampleHistoryCall sampleEpochRoom sampleHistoryToken 4
          (.string "1970-01-01T00:00:00.001Z") := by
  have hlong : IsLong sampleHistoryToken.user := by decide
  have htoken : (sampleEpochRoom.store.validate 0 sampleHistoryToken).1 =
      .ok () := by
    decide
  have hahead : Denotes "1970-01-01T01:00:00.0015+01:00" (3 / 2) :=
    denotes_sample _ "01" "0015" (.offset '+' "01".toList "00".toList) 15 4
      (by decide) rfl (by decide) (by decide) (by norm_num)
  have hother : Denotes "1970-01-01T00:00:00.00150Z" (3 / 2) :=
    denotes_sample _ "00" "00150" (.universal 'Z') 150 5 (by decide)
      rfl (by decide) (by decide) (by norm_num)
  have hwhole : Denotes "1970-01-01T00:00:00.001Z" 1 :=
    denotes_sample _ "00" "001" (.universal 'Z') 1 3 (by decide) rfl (by decide)
      (by decide) (by norm_num)
  have hhistory :=
    @history_before_instant 0 sampleHistoryCall sampleEpochRoom
      sampleHistoryToken 4 rfl hlong htoken (by decide) (by decide)
  obtain ⟨hpage, hsame, -⟩ :=
    (hhistory "1970-01-01T01:00:00.0015+01:00").2 _ hahead
  have hnumber :=
    ((hhistory "1970-01-01T00:00:00.001Z").2 _ hwhole).2.2 1 (by norm_num)
  have hfloor : ⌊(3 / 2 : ℚ)⌋ = 1 := by norm_num
  have hmessages :
      (sampleEpochRoom.store.messages.filter fun m => m.createdAt < 1) =
      [messageAt "a" 0, messageAt "c" (-1)] := by decide
  rw [hfloor, hmessages] at hpage
  exact ⟨rfl, hlong, htoken, by decide, by decide, hahead, hother, hwhole,
    hpage, hsame _ hother, hnumber⟩

/-- Half a millisecond after the epoch, a message created at the epoch is not
returned. -/
theorem part_of_millisecond_is_dropped :
    (keptRoom [messageAt "a" 0]).fault = none ∧ IsLong sampleHistoryToken.user ∧
      ((keptRoom [messageAt "a" 0]).store.validate 0 sampleHistoryToken).1 =
        .ok () ∧
      (keptRoom [messageAt "a" 0]).store.messages.length ≤ 1 ∧
      Denotes "1970-01-01T00:00:00.0005Z" (1 / 2) ∧
      (answer 0 sampleHistoryCall (keptRoom [messageAt "a" 0])
        sampleHistoryToken 1
        (.string "1970-01-01T00:00:00.0005Z")).1.code = Status.ok ∧
      ¬ ∃ shown, (answer 0 sampleHistoryCall (keptRoom [messageAt "a" 0])
          sampleHistoryToken 1
          (.string "1970-01-01T00:00:00.0005Z")).1 = page shown ∧
        ∀ m, m ∈ shown ↔ m ∈ (keptRoom [messageAt "a" 0]).store.messages ∧
          (m.createdAt : ℚ) < 1 / 2 := by
  have hlong : IsLong sampleHistoryToken.user := by decide
  have htoken :
      ((keptRoom [messageAt "a" 0]).store.validate 0 sampleHistoryToken).1 =
      .ok () := by
    decide
  have hdenotes : Denotes "1970-01-01T00:00:00.0005Z" (1 / 2) :=
    denotes_sample _ "00" "0005" (.universal 'Z') 5 4 (by decide)
      rfl (by decide) (by decide) (by norm_num)
  have htime :
      HistoryQuery.timeOf (.string "1970-01-01T00:00:00.0005Z") = .ok 0 :=
    HistoryQuery.timeOf_string.mpr
      (Rfc3339.milliseconds_eq_ok.mpr ⟨_, hdenotes, by norm_num⟩)
  have hanswer :=
    @answer_page 0 sampleHistoryCall (keptRoom [messageAt "a" 0])
      sampleHistoryToken
      (.string "1970-01-01T00:00:00.0005Z") 1 rfl hlong htoken (by decide)
        rfl trivial 0 htime
  have hempty : (keptRoom [messageAt "a" 0]).store.messagesBefore 0 1 = [] :=
    Store.messagesBefore_of_inOrder (by decide) 0 1
  rw [hempty] at hanswer
  refine ⟨rfl, hlong, htoken, by decide, hdenotes, ?_, ?_⟩
  · rw [hanswer]
    exact page_code []
  · rintro ⟨shown, hshown, hmem⟩
    rw [hanswer] at hshown
    have hnone : shown = [] := by
      rw [← page_status, ← hshown]
      exact (page_status []).mpr rfl
    have hkept : messageAt "a" 0 ∈ shown :=
      (hmem _).mpr ⟨List.mem_cons_self, by norm_num [messageAt]⟩
    rw [hnone] at hkept
    exact absurd hkept List.not_mem_nil

end Chat
end ChatRelay
