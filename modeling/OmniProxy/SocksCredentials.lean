import OmniProxy.CountedFields
import OmniProxy.LossyText
import OmniProxy.SocksHandshake

/-!
# Credentials that a SOCKS server compares

A server with a user name and a password accepts a client only after fields that decode to
them. The fields are decoded lossily, so a user name or a password that contains the
replacement character is also met by octets that are not its own. Without a user name a client
has to offer the method without authentication.
-/

namespace OmniProxy.SocksCredentials

open ByteStrings Connections ProxyTargets AddressReads RuntimeConfig NodePlans SocksHandshake
open CountedFields LossyText Utf8Text

section Presenting

/-- The stream offers the method with a user name and a password, and these are its fields. -/
structure Presents (incoming user pass rest : Bytes) : Prop where
  userShort : user.length ≤ 255
  passShort : pass.length ≤ 255
  framed : ∃ methods, (0x02 : UInt8) ∈ methods ∧ methods.length ≤ 255 ∧
    incoming = greetingOf methods ++ (subnegotiationOf user pass ++ rest)

/-- The fields are the octets of the user name and of the password. -/
def PresentsExactly (username password : String) (incoming : Bytes) : Prop :=
  ∃ rest, Presents incoming (asBytes username) (asBytes password) rest

/-- A request for a connection or for datagrams. -/
def Served (rest : Bytes) : Prop :=
  ∃ request cmd addr more, RequestForm request cmd addr ∧ cmd ≠ .bind ∧ rest = request ++ more

/-- The fields decode to the user name and the password, though one of them is no text, and a
request follows. -/
def Disguised (username password : String) (incoming : Bytes) : Prop :=
  ∃ user pass rest, Presents incoming user pass rest ∧ fromUtf8Lossy user = username ∧
    fromUtf8Lossy pass = password ∧ (fromUtf8 user = none ∨ fromUtf8 pass = none) ∧ Served rest

/-- The stream offers the method without authentication. -/
def OffersOpen (incoming : Bytes) : Prop :=
  ∃ methods rest, (0x00 : UInt8) ∈ methods ∧ methods.length ≤ 255 ∧
    incoming = greetingOf methods ++ rest

/-- The handshake accepts the client of a stream. -/
def Accepts (cfg : SocksInboundConfig) (incoming : Bytes) : Prop :=
  ∃ value after, (handshake cfg).run ⟨incoming, []⟩ = .ok value after

/-- A stream presents one user name and one password. -/
theorem presents_unique {incoming user pass rest other another more : Bytes}
    (presents : Presents incoming user pass rest) (again : Presents incoming other another more) :
    user = other ∧ pass = another ∧ rest = more := by
  obtain ⟨userShort, passShort, methods, -, short, framed⟩ := presents
  obtain ⟨otherShort, anotherShort, offered, -, offeredShort, reframed⟩ := again
  obtain ⟨-, same⟩ := greeting_cancel methods offered _ _ short offeredShort
    (framed.symm.trans reframed)
  simp only [subnegotiationOf, List.cons_append, List.append_assoc] at same
  obtain ⟨rfl, later⟩ := octet_counted_inj userShort otherShort (List.cons.inj same).2
  obtain ⟨rfl, rfl⟩ := octet_counted_inj passShort anotherShort later
  exact ⟨rfl, rfl, rfl⟩

end Presenting

section Accepting

variable (username password : String)

/-- The check of the credentials passes exactly on fields that decode to them. -/
theorem authenticate_yields_iff (conn after : Conn) (value : Unit) :
    (authenticate ⟨some username, some password⟩).run conn = .ok value after ↔
      ∃ user pass, user.length ≤ 255 ∧ pass.length ≤ 255 ∧ fromUtf8Lossy user = username ∧
        fromUtf8Lossy pass = password ∧
        conn.incoming = subnegotiationOf user pass ++ after.incoming ∧
        after.written = conn.written ++ [0x01, 0x00] := by
  constructor
  · intro passed
    obtain ⟨user, pass, userShort, passShort, sameUser, samePass, arrived, confirmed⟩ :=
      authenticate_yields _ _ _ _ passed
    exact ⟨user, pass, userShort, passShort, (Option.some.inj sameUser).symm,
      (Option.some.inj samePass).symm, arrived, confirmed⟩
  · rintro ⟨user, pass, userShort, passShort, rfl, rfl, arrived, confirmed⟩
    simp only [authenticate, bind_yields_iff, read_exact_yields_iff, reject_if_yields_iff,
      write_all_yields_iff]
    refine ⟨[0x01, UInt8.ofNat user.length],
      ⟨user ++ (UInt8.ofNat pass.length :: pass ++ after.incoming), conn.written⟩,
      ⟨rfl, ?_, rfl⟩, (), _, ⟨by simp, rfl⟩, user,
      ⟨UInt8.ofNat pass.length :: pass ++ after.incoming, conn.written⟩, ⟨?_, rfl, rfl⟩,
      [UInt8.ofNat pass.length], ⟨pass ++ after.incoming, conn.written⟩, ⟨rfl, rfl, rfl⟩, pass,
      ⟨after.incoming, conn.written⟩, ⟨?_, rfl, rfl⟩, (), _, rfl, by simp, ?_⟩
    · rw [arrived, subnegotiationOf]
      simp
    · exact (count_told user userShort).symm
    · exact (count_told pass passShort).symm
    · simp [← confirmed]

/-- With a user name and a password the handshake accepts exactly the streams that present
fields which decode to them and go on with a request. -/
theorem guarded_accepts_iff (incoming : Bytes) :
    Accepts ⟨some username, some password⟩ incoming ↔
      ∃ user pass rest, Presents incoming user pass rest ∧ fromUtf8Lossy user = username ∧
        fromUtf8Lossy pass = password ∧ Served rest := by
  simp only [Accepts, handshake_yields_iff, read_greeting_yields_iff]
  constructor
  · rintro ⟨value, after, methods, reached, chosen, ⟨-, short, arrived, -⟩, chose, served⟩
    have offered : (0x02 : UInt8) ∈ methods := by
      by_contra absent
      simp [chooseMethod, absent] at chose
    obtain ⟨_, checked, authenticated, requested⟩ := (bind_yields_iff _ _ _ _ _).mp served
    obtain ⟨user, pass, userShort, passShort, sameUser, samePass, presented, -⟩ :=
      (authenticate_yields_iff _ _ _ _ _).mp authenticated
    obtain ⟨request, cmd, addr, more, form, asks, follows⟩ :=
      (serve_request_accepts_iff checked).mp ⟨value, after, requested⟩
    refine ⟨user, pass, checked.incoming, ⟨userShort, passShort, methods, offered, short, ?_⟩,
      sameUser, samePass, request, cmd, addr, more, form, asks, follows⟩
    exact arrived.trans (congrArg (greetingOf methods ++ ·) presented)
  · rintro ⟨user, pass, rest, ⟨userShort, passShort, methods, offered, short, rfl⟩, sameUser,
      samePass, request, cmd, addr, more, form, asks, rfl⟩
    have chose : chooseMethod ⟨some username, some password⟩ methods = some .userPass := by
      simp [chooseMethod, offered]
    obtain ⟨value, after, served⟩ :=
      (serve_request_accepts_iff ⟨request ++ more, [version, 0x02] ++ [0x01, 0x00]⟩).mpr
        ⟨request, cmd, addr, more, form, asks, rfl⟩
    refine ⟨value, after, methods, ⟨subnegotiationOf user pass ++ (request ++ more), []⟩, .userPass,
      ⟨List.ne_nil_of_mem offered, short, rfl, rfl⟩, chose, ?_⟩
    refine (bind_yields_iff _ _ _ _ _).mpr ⟨(), ⟨request ++ more, _⟩, ?_, served⟩
    exact (authenticate_yields_iff _ _ _ _ _).mpr
      ⟨user, pass, userShort, passShort, sameUser, samePass, rfl, rfl⟩

end Accepting

section Spelling

/-- The fewest octets that decode to a text. -/
def spelling (text : String) : Bytes := text.toList.flatMap shortest

/-- The octets of a text are those of its characters. -/
theorem as_bytes_chars (text : String) :
    asBytes text = text.toList.flatMap String.utf8EncodeChar := by
  rw [← as_bytes_of_list, String.ofList_toList]

/-- The characters that are decoded are those of the text. -/
theorem lossy_text {octets : Bytes} {text : String} (decoded : fromUtf8Lossy octets = text) :
    lossyChars octets = text.toList := by
  rw [← decoded, from_utf8_lossy_chars, String.toList_ofList]

/-- Only a text with the replacement character is decoded from octets that are none. -/
theorem broken_decodes {octets : Bytes} {text : String} (decoded : fromUtf8Lossy octets = text)
    (broken : fromUtf8 octets = none) : replacement ∈ text.toList := by
  by_contra intact
  have repaired := lossy_repaired octets
  rw [lossy_text decoded] at repaired
  have own := repaired_exact repaired intact
  rw [← as_bytes_chars] at own
  rw [own, from_utf8_as_bytes] at broken
  cases broken

/-- No shorter octets decode to a text than its spelling. -/
theorem spelling_least {octets : Bytes} {text : String} (decoded : fromUtf8Lossy octets = text) :
    (spelling text).length ≤ octets.length := by
  have repaired := lossy_repaired octets
  rw [lossy_text decoded] at repaired
  exact repaired_width repaired

/-- The spelling of a text decodes to it. -/
theorem spelling_decodes (text : String) : fromUtf8Lossy (spelling text) = text := by
  rw [from_utf8_lossy_chars, spelling, lossy_chars_shortest, String.ofList_toList]

/-- The shortest spelling of a text with the replacement character is no text. -/
theorem spelling_broken {text : String} (broken : replacement ∈ text.toList) :
    fromUtf8 (spelling text) = none := by
  by_contra decodes
  have own := text_decodes decodes
  rw [spelling_decodes, as_bytes_chars] at own
  have shorter := shortest_shorter broken
  rw [own] at shorter
  exact Nat.lt_irrefl _ shorter

end Spelling

section Exactness

variable (username password : String)

/-- Accepted fields that are text are exactly those of the credentials. -/
theorem accepted_exactly_iff (incoming : Bytes) :
    (Accepts ⟨some username, some password⟩ incoming →
        PresentsExactly username password incoming) ↔
      ¬Disguised username password incoming := by
  rw [guarded_accepts_iff]
  constructor
  · rintro exact ⟨user, pass, rest, presents, sameUser, samePass, broken, served⟩
    obtain ⟨more, itself⟩ := exact ⟨user, pass, rest, presents, sameUser, samePass, served⟩
    obtain ⟨rfl, rfl, -⟩ := presents_unique presents itself
    rw [from_utf8_as_bytes, from_utf8_as_bytes] at broken
    rcases broken with nothing | nothing
    · cases nothing
    · cases nothing
  · rintro plain ⟨user, pass, rest, presents, sameUser, samePass, served⟩
    have texts : ¬(fromUtf8 user = none ∨ fromUtf8 pass = none) := fun broken =>
      plain ⟨user, pass, rest, presents, sameUser, samePass, broken, served⟩
    obtain ⟨userText, passText⟩ := not_or.mp texts
    have userOwn := text_decodes userText
    have passOwn := text_decodes passText
    rw [sameUser] at userOwn
    rw [samePass] at passOwn
    rw [PresentsExactly, userOwn, passOwn]
    exact ⟨rest, presents⟩

/-- The credentials have no replacement character, or cannot be presented at all. -/
def Unmistakable : Prop :=
  (replacement ∉ username.toList ∧ replacement ∉ password.toList) ∨
    255 < (spelling username).length ∨ 255 < (spelling password).length

/-- A request to connect to a port of an address. -/
def anyRequest : Bytes := [5, 1, 0, 1, 10, 0, 0, 1, 0, 80]

/-- The sample request is served. -/
theorem any_request_served : Served anyRequest :=
  ⟨anyRequest, .connect, .v4 ⟨[10, 0, 0, 1], rfl⟩ 80, [],
    .intro rfl (.v4 ⟨[10, 0, 0, 1], rfl⟩ 80), by decide, rfl⟩

/-- The stream of a client that presents some fields and asks for a connection. -/
def presenting (user pass : Bytes) : Bytes :=
  greetingOf [0x02] ++ (subnegotiationOf user pass ++ anyRequest)

/-- Other octets stand for the credentials on some stream exactly when they contain the
replacement character and can be presented. -/
theorem never_disguised_iff :
    (∀ incoming, ¬Disguised username password incoming) ↔ Unmistakable username password := by
  constructor
  · intro plain
    by_contra mistakable
    obtain ⟨broken, userShort, passShort⟩ : (replacement ∈ username.toList ∨
        replacement ∈ password.toList) ∧ (spelling username).length ≤ 255 ∧
        (spelling password).length ≤ 255 := by
      simp only [Unmistakable, not_or, not_and_or, not_not, Nat.not_lt] at mistakable
      exact mistakable
    refine plain (presenting (spelling username) (spelling password))
      ⟨spelling username, spelling password, anyRequest,
        ⟨userShort, passShort, [0x02], by decide, by decide, rfl⟩, spelling_decodes username,
        spelling_decodes password, ?_, any_request_served⟩
    rcases broken with inUser | inPass
    · exact .inl (spelling_broken inUser)
    · exact .inr (spelling_broken inPass)
  · rintro unmistakable incoming
      ⟨user, pass, rest, presents, sameUser, samePass, broken, -⟩
    rcases unmistakable with ⟨intactUser, intactPass⟩ | longUser | longPass
    · rcases broken with nothing | nothing
      · exact intactUser (broken_decodes sameUser nothing)
      · exact intactPass (broken_decodes samePass nothing)
    · have least := spelling_least sameUser
      have short := presents.userShort
      omega
    · have least := spelling_least samePass
      have short := presents.passShort
      omega

/-- Without a user name the handshake accepts only who offers the method without
authentication. -/
theorem open_accepts_offered (unused : Option String) (incoming : Bytes)
    (accepts : Accepts ⟨none, unused⟩ incoming) : OffersOpen incoming := by
  obtain ⟨methods, request, cmd, addr, rest, offered, short, -, -, framed⟩ :=
    (open_handshake_accepts_iff unused incoming []).mp accepts
  exact ⟨methods, request ++ rest, offered, short, framed⟩

/-- With a user name and no password it accepts nobody. -/
theorem no_password_refuses (incoming : Bytes) : ¬Accepts ⟨some username, none⟩ incoming := by
  rintro ⟨value, after, accepted⟩
  obtain ⟨methods, reached, chosen, -, -, served⟩ := (handshake_yields_iff _ _ _ _).mp accepted
  obtain ⟨_, checked, authenticated, -⟩ := (bind_yields_iff _ _ _ _ _).mp served
  obtain ⟨user, pass, -, -, -, samePass, -⟩ := authenticate_yields _ _ _ _ authenticated
  cases samePass

/-- For all credentials and all streams: the handshake accepts only the octets of the user name
and of the password exactly where no others stand for them, and that is so on every stream
exactly for credentials that cannot be mistaken; without a user name the method without
authentication has been offered. -/
theorem authentication_exact_iff :
    (∀ incoming, (Accepts ⟨some username, some password⟩ incoming →
        PresentsExactly username password incoming) ↔
      ¬Disguised username password incoming) ∧
    ((∀ incoming, Accepts ⟨some username, some password⟩ incoming →
        PresentsExactly username password incoming) ↔
      Unmistakable username password) ∧
    ∀ unused incoming, Accepts ⟨none, unused⟩ incoming → OffersOpen incoming := by
  refine ⟨accepted_exactly_iff username password, ?_, open_accepts_offered⟩
  rw [← never_disguised_iff]
  exact forall_congr' (accepted_exactly_iff username password)

/-- The user name is the replacement character, and an octet that is no text is accepted
for it. -/
theorem broken_octet_accepted :
    Accepts ⟨some (String.ofList [replacement]), some "p"⟩ (presenting [0xFF] [112]) ∧
      ¬PresentsExactly (String.ofList [replacement]) "p" (presenting [0xFF] [112]) := by
  have presents : Presents (presenting [0xFF] [112]) [0xFF] [112] anyRequest :=
    ⟨by decide, by decide, [0x02], by decide, by decide, rfl⟩
  have sameUser : fromUtf8Lossy [0xFF] = String.ofList [replacement] := by decide
  have samePass : fromUtf8Lossy [112] = "p" := by decide
  refine ⟨(guarded_accepts_iff _ _ _).mpr
    ⟨_, _, _, presents, sameUser, samePass, any_request_served⟩, ?_⟩
  rintro ⟨rest, exactly⟩
  obtain ⟨same, -⟩ := presents_unique presents exactly
  have text := from_utf8_as_bytes (String.ofList [replacement])
  rw [← same] at text
  cases text

end Exactness

end OmniProxy.SocksCredentials
