import McpRuntime.Python.Ascii
import McpRuntime.Tool.Manifest

/-!
# The pages of the tool list

The transport lists the tools that it admitted at its start page by page. A page ends with the
cursor of the next one, a text with the number of the page and a token of the catalog; a
cursor with another token is refused.

* `decodeCursor_encodeCursor`: the numbers that cursors give back, and to which tokens;
* `Walk` follows the cursors from page to page, and `start_walk` is its end: from no cursor,
  every tool that was admitted is listed once and in order, on at most `maxToolPages` pages.

A tool is a manifest of an application or a descriptor of a protocol endpoint. What the
transport takes of it is a parameter.
-/

namespace McpRuntime.Transport

/-! ## Catalogs -/

/-- The limits of `StreamableHTTPLimits` on the tools. -/
structure ToolLimits where
  maxSchemaBytes : ℕ := 262144
  maxTools : ℕ := 128
  toolPageSize : ℕ := 32
  maxToolPages : ℕ := 4
  maxSchemaBytes_range : 1 ≤ maxSchemaBytes ∧ maxSchemaBytes ≤ 262144 := by decide
  maxTools_range : 1 ≤ maxTools ∧ maxTools ≤ 128 := by decide
  toolPageSize_range : 1 ≤ toolPageSize ∧ toolPageSize ≤ 128 := by decide
  maxToolPages_range : 1 ≤ maxToolPages ∧ maxToolPages ≤ 128 := by decide
  pages_cover : maxTools ≤ toolPageSize * maxToolPages := by decide

/-- What the transport takes of a tool. -/
structure ToolKind (τ μ : Type) where
  /-- The name and the fingerprint of the contract. -/
  entry : τ → Text × Text
  /-- The number of bytes of the schemas of tools, where all of them have a text in JSON that
      UTF-8 can encode. -/
  schemaBytes : List τ → Option ℕ
  /-- The tool as it is listed: `_mcp_tool` or `_mcp_protocol_tool`. -/
  present : τ → μ

/-- The codes of `StreamableHTTPConfigurationError`. -/
inductive ConfigurationError
  | toolLimitExceeded
  | invalidProtocolTools
  | schemaLimitExceeded
  | unicodeEncodeError
  deriving DecidableEq

/-- The `MCPError` that a request raises. -/
inductive ListError
  /-- `INVALID_PARAMS`, with `Invalid cursor`. -/
  | invalidCursor
  /-- `INTERNAL_ERROR`, with `Internal error`. -/
  | internalError
  /-- An `MCPError` of the session. -/
  | session (code : ℤ) (message : Text)
  deriving DecidableEq

/-- The tools that were admitted, and the token of the catalog. -/
structure ToolList (τ : Type) where
  tools : List τ
  catalogToken : Text

variable {τ μ : Type}

/-- The names and fingerprints of tools, of which the digest of a catalog is taken. -/
def catalogDocument (kind : ToolKind τ μ) (tools : List τ) : Text :=
  [0].intercalate (tools.map fun tool => (kind.entry tool).1 ++ 58 :: (kind.entry tool).2)

/-- The catalog that `start` keeps, of a protocol endpoint or an application. -/
def start (hashing : Hashing) (limits : ToolLimits) (kind : ToolKind τ μ) (tools : List τ) :
    Except ConfigurationError (ToolList τ) :=
  if limits.maxTools < tools.length then .error .toolLimitExceeded
  else
    match kind.schemaBytes tools with
    | none => .error .invalidProtocolTools
    | some schemaBytes =>
      if limits.maxSchemaBytes < schemaBytes then .error .schemaLimitExceeded
      else
        match hashing.digest (catalogDocument kind tools) with
        | none => .error .unicodeEncodeError
        | some digest => .ok ⟨tools, digest.take 24⟩

/-! ## Cursors -/

/-- `_encode_cursor`. -/
def encodeCursor (catalogToken : Text) (page : ℕ) : Text :=
  let payload := lit "v1:" ++ catalogToken ++ 58 :: natText page
  Text.rstripChar 61 (Base64.urlsafeEncode payload.asciiBytes)

/-- The parts of the payload of a cursor: its version, its token and its page. -/
def cursorParts (cursor : Text) : Option (Text × Text × ℤ) := do
  let payload ← decodeAscii (← Base64.urlsafeDecode (Base64.padded cursor))
  match payload.splitMost 58 2 with
  | [version, token, pageText] => some (version, token, ← readInt pageText)
  | _ => none

/-- `_decode_cursor`. -/
def decodeCursor (limits : ToolLimits) (catalogToken cursor : Text) : Except ListError ℕ :=
  if cursor = [] ∨ 256 < cursor.length then .error .invalidCursor
  else
    match cursorParts cursor with
    | none => .error .invalidCursor
    | some (version, token, page) =>
      if version ≠ lit "v1" ∨ token ≠ catalogToken ∨ page < 1 ∨ limits.maxToolPages ≤ page then
        .error .invalidCursor
      else .ok page.toNat

/-! ## Pages -/

/-- The page of a request: the first one without a cursor. -/
def requestedPage (limits : ToolLimits) (catalogToken : Text) : Option Text → Except ListError ℕ
  | none => .ok 0
  | some cursor => decodeCursor limits catalogToken cursor

/-- A protocol endpoint lists its tools in a session, or raises; an exception that is no
    `MCPError` is an internal error. -/
def checkSession [DecidableEq τ] (catalog : ToolList τ) :
    Option (Except ListError (List τ)) → Except ListError Unit
  | none => .ok ()
  | some (.error e) => .error e
  | some (.ok listed) => if listed ≠ catalog.tools then .error .internalError else .ok ()

/-- `_list_tools`, with the session of a protocol endpoint: the tools on a page, and the next
    cursor. -/
def listTools [DecidableEq τ] (limits : ToolLimits) (kind : ToolKind τ μ) (catalog : ToolList τ)
    (session : Option (Except ListError (List τ))) (cursor : Option Text) :
    Except ListError (List μ × Option Text) := do
  checkSession catalog session
  let page ← requestedPage limits catalog.catalogToken cursor
  let start := page * limits.toolPageSize
  let toolCount := catalog.tools.length
  if start ≥ toolCount ∧ start ≠ 0 then throw .invalidCursor
  let stop := min (start + limits.toolPageSize) toolCount
  let nextCursor :=
    if stop < toolCount then some (encodeCursor catalog.catalogToken (page + 1)) else none
  pure (((catalog.tools.drop start).take (stop - start)).map kind.present, nextCursor)

/-- The pages from a cursor on, each the one that the cursor of the page before it names. -/
inductive Walk [DecidableEq τ] (limits : ToolLimits) (kind : ToolKind τ μ)
    (catalog : ToolList τ) (session : Option (Except ListError (List τ))) :
    Option Text → List (List μ) → Prop
  | last {cursor : Option Text} {tools : List μ} :
      listTools limits kind catalog session cursor = .ok (tools, none) →
      Walk limits kind catalog session cursor [tools]
  | next {cursor : Option Text} {tools : List μ} {nextCursor : Text} {pages : List (List μ)} :
      listTools limits kind catalog session cursor = .ok (tools, some nextCursor) →
      Walk limits kind catalog session (some nextCursor) pages →
      Walk limits kind catalog session cursor (tools :: pages)

/-- A catalog that the transport can keep. -/
structure ToolList.Admitted (limits : ToolLimits) (catalog : ToolList τ) : Prop where
  length_le : catalog.tools.length ≤ limits.maxTools
  token_length : catalog.catalogToken.length = 24
  token_isHex : ∀ c ∈ catalog.catalogToken, c.isDigit ∨ (97 ≤ c.val ∧ c.val ≤ 102)

theorem start_admitted {hashing : Hashing} {limits : ToolLimits} {kind : ToolKind τ μ}
    {tools : List τ} {catalog : ToolList τ} (h : start hashing limits kind tools = .ok catalog) :
    catalog.tools = tools ∧ catalog.Admitted limits := by
  rw [start] at h
  split_ifs at h with hcount
  cases hschema : kind.schemaBytes tools with
  | none =>
    rw [hschema] at h
    cases h
  | some schemaBytes =>
    simp only [hschema] at h
    split_ifs at h with hbytes
    cases hdigest : hashing.digest (catalogDocument kind tools) with
    | none =>
      rw [hdigest] at h
      cases h
    | some digest =>
      rw [hdigest] at h
      cases h
      -- The token is made of the first digits of the digest, which are hexadecimal.
      have hhex := (hashing.sha256 (catalogDocument kind tools)).isDigest
      rw [Hashing.sha256_of_digest hdigest, isDigest, Bool.and_eq_true, decide_eq_true_iff,
        List.all_eq_true] at hhex
      refine ⟨rfl, not_lt.1 hcount, ?_, fun c hc => ?_⟩
      · rw [List.length_take, hhex.1]
        rfl
      · simpa using hhex.2 c (List.mem_of_mem_take hc)

/-! ## Cursors are read back -/

section
variable {limits : ToolLimits} {token catalogToken : Text}

/-- A character of a token is ASCII, and no colon. -/
theorem isHex_range {c : CodePoint} (h : c.isDigit ∨ (97 ≤ c.val ∧ c.val ≤ 102)) :
    c.val < 0x80 ∧ c ≠ 58 := by
  rcases h with h | h
  · simp only [CodePoint.isDigit, Bool.and_eq_true, decide_eq_true_eq] at h
    exact ⟨by omega, by rintro rfl; exact absurd h.2 (by decide)⟩
  · exact ⟨by omega, by rintro rfl; exact absurd h.1 (by decide)⟩

/-- The parts of a cursor are those it was made of. -/
theorem cursorParts_encodeCursor
    (htoken : ∀ c ∈ token, c.isDigit ∨ (97 ≤ c.val ∧ c.val ≤ 102)) (page : ℕ) :
    cursorParts (encodeCursor token page) = some (lit "v1", token, (page : ℤ)) := by
  have hpayload : lit "v1:" ++ token ++ 58 :: natText page =
      lit "v1" ++ 58 :: (token ++ 58 :: natText page) := rfl
  -- Only ASCII is in the payload, so that its bytes are decoded to itself.
  have hascii : ∀ c ∈ lit "v1:" ++ token ++ 58 :: natText page, c.val < 0x80 := by
    intro c hc
    rw [List.mem_append, List.mem_append, List.mem_cons] at hc
    rcases hc with (hc | hc) | rfl | hc
    · have hversion : (lit "v1:").all (·.val < 0x80) = true := by decide
      exact of_decide_eq_true (List.all_eq_true.1 hversion c hc)
    · exact (isHex_range (htoken c hc)).1
    · decide
    · have := natText_digit hc
      omega
  -- No colon is in the version or the token, and the third part is not split any more.
  have hsplit : (lit "v1:" ++ token ++ 58 :: natText page).splitMost 58 2 =
      [lit "v1", token, natText page] := by
    rw [hpayload, Text.splitMost_append (by decide),
      Text.splitMost_append fun hc => (isHex_range (htoken 58 hc)).2 rfl]
    rfl
  rw [cursorParts, encodeCursor, Base64.urlsafeDecode_padded]
  simp only [Option.bind_eq_bind, Option.bind_some]
  rw [decodeAscii_asciiBytes hascii, Option.bind_some, hsplit]
  simp only [readInt_natText, Option.bind_some]

/-- A cursor is short, and there is something in it. -/
theorem length_encodeCursor (htoken : ∀ c ∈ token, c.isDigit ∨ (97 ≤ c.val ∧ c.val ≤ 102))
    (hlength : token.length = 24) {page : ℕ} (hpage : page < 128) :
    encodeCursor token page ≠ [] ∧ (encodeCursor token page).length ≤ 256 := by
  constructor
  · intro he
    have hparts := cursorParts_encodeCursor htoken page
    rw [he] at hparts
    cases hparts
  · have hdigits : ∀ page < 128, (natText page).length ≤ 3 := by decide
    have hstrip := (List.rdropWhile_prefix (· = (61 : CodePoint)) (l := Base64.urlsafeEncode
      (lit "v1:" ++ token ++ 58 :: natText page).asciiBytes)).length_le
    have hpayload : (lit "v1:" ++ token ++ 58 :: natText page).length ≤ 31 := by
      have := hdigits page hpage
      have hversion : (lit "v1:").length = 3 := rfl
      simp only [List.length_append, List.length_cons, hlength, hversion]
      omega
    rw [Base64.urlsafeEncode, List.length_map, Base64.length_encode, Text.asciiBytes,
      List.length_map] at hstrip
    exact hstrip.trans (by omega)

/-- A cursor gives its page back to the catalog with its token, and is refused elsewhere. -/
theorem decodeCursor_encodeCursor
    (htoken : ∀ c ∈ token, c.isDigit ∨ (97 ≤ c.val ∧ c.val ≤ 102))
    (hlength : token.length = 24) (page : ℕ) :
    decodeCursor limits catalogToken (encodeCursor token page) =
      if token = catalogToken ∧ 1 ≤ page ∧ page < limits.maxToolPages then .ok page
      else .error .invalidCursor := by
  have hmax := limits.maxToolPages_range.2
  rw [decodeCursor]
  split_ifs with hshape hpage hpage
  -- The cursor of a page that exists is short enough to be decoded.
  · obtain ⟨hne, hle⟩ := length_encodeCursor htoken hlength (hpage.2.2.trans_le hmax)
    exact absurd hshape (not_or.2 ⟨hne, not_lt.2 hle⟩)
  · rfl
  · obtain ⟨rfl, hpos, hlt⟩ := hpage
    simp only [cursorParts_encodeCursor htoken]
    rw [if_neg]
    · rfl
    · push Not
      exact ⟨rfl, rfl, by omega, by omega⟩
  · simp only [cursorParts_encodeCursor htoken]
    rw [if_pos]
    by_contra hall
    push Not at hall
    exact hpage ⟨hall.2.1, by omega, by omega⟩

end

/-! ## The walk -/

section
variable [DecidableEq τ] {limits : ToolLimits} (kind : ToolKind τ μ) {catalog : ToolList τ}
  {session : Option (Except ListError (List τ))}

/-- The tools from a page on, which is listed when it is the first or begins within them. -/
theorem listTools_page (hsession : checkSession catalog session = .ok ())
    {cursor : Option Text} {page : ℕ}
    (hpage : requestedPage limits catalog.catalogToken cursor = .ok page)
    (hstart : page = 0 ∨ page * limits.toolPageSize < catalog.tools.length) :
    listTools limits kind catalog session cursor =
      .ok (((catalog.tools.drop (page * limits.toolPageSize)).take limits.toolPageSize).map
          kind.present,
        if (page + 1) * limits.toolPageSize < catalog.tools.length then
          some (encodeCursor catalog.catalogToken (page + 1)) else none) := by
  have hsize := limits.toolPageSize_range.1
  obtain ⟨start, hs⟩ : ∃ start, start = page * limits.toolPageSize := ⟨_, rfl⟩
  have hnext : (page + 1) * limits.toolPageSize = start + limits.toolPageSize := by
    rw [hs, Nat.succ_mul]
  rw [← hs] at hstart
  -- The check of the source lets the first page of an empty catalog through.
  have hinside : ¬(start ≥ catalog.tools.length ∧ start ≠ 0) := by
    rintro ⟨hge, hne⟩
    rcases hstart with rfl | hlt
    · exact hne (hs.trans (Nat.zero_mul _))
    · omega
  have hstop : min (start + limits.toolPageSize) catalog.tools.length < catalog.tools.length ↔
      start + limits.toolPageSize < catalog.tools.length := by omega
  have hlisted : (catalog.tools.drop start).take
      (min (start + limits.toolPageSize) catalog.tools.length - start) =
        (catalog.tools.drop start).take limits.toolPageSize := by
    rw [List.take_eq_take_iff, List.length_drop]
    omega
  rw [listTools, hsession, hpage, hnext]
  simp only [bind, Except.bind, pure, Except.pure, ← hs, if_neg hinside, hlisted, hstop]

/-- A walk has one end. -/
theorem Walk.unique {kind : ToolKind τ μ} {cursor : Option Text} {pages pages' : List (List μ)}
    (h : Walk limits kind catalog session cursor pages)
    (h' : Walk limits kind catalog session cursor pages') : pages = pages' := by
  induction h generalizing pages' with
  | last hpage =>
    cases h' with
    | last hpage' => rw [hpage] at hpage'; cases hpage'; rfl
    | next hpage' _ => rw [hpage] at hpage'; cases hpage'
  | next hpage _ ih =>
    cases h' with
    | last hpage' => rw [hpage] at hpage'; cases hpage'
    | next hpage' hrest =>
      rw [hpage] at hpage'
      cases hpage'
      rw [ih hrest]

/-- The walk from a page on lists the tools from there on. -/
theorem exists_walk (hsession : checkSession catalog session = .ok ())
    (hcatalog : catalog.Admitted limits) (remaining : ℕ) {cursor : Option Text} {page : ℕ}
    (hpage : requestedPage limits catalog.catalogToken cursor = .ok page)
    (hstart : page = 0 ∨ page * limits.toolPageSize < catalog.tools.length)
    (hremaining : page + remaining = limits.maxToolPages) :
    ∃ pages, Walk limits kind catalog session cursor pages ∧ pages.length ≤ remaining ∧
      pages.flatten = (catalog.tools.drop (page * limits.toolPageSize)).map kind.present := by
  have hcover : catalog.tools.length ≤ limits.maxToolPages * limits.toolPageSize := by
    rw [Nat.mul_comm]
    exact hcatalog.length_le.trans limits.pages_cover
  induction remaining generalizing cursor page with
  | zero =>
    have hpos := limits.maxToolPages_range.1
    rcases hstart with rfl | hlt
    · omega
    · rw [show page = limits.maxToolPages from hremaining] at hlt
      exact absurd hcover (not_le.2 hlt)
  | succ remaining ih =>
    have hlisted := listTools_page kind hsession hpage hstart
    split_ifs at hlisted with hmore
    · -- the next page is within the pages that cursors can name
      have hwithin : page + 1 < limits.maxToolPages :=
        Nat.lt_of_mul_lt_mul_right (hmore.trans_le hcover)
      have hnext : requestedPage limits catalog.catalogToken
          (some (encodeCursor catalog.catalogToken (page + 1))) = .ok (page + 1) := by
        rw [requestedPage, decodeCursor_encodeCursor hcatalog.token_isHex hcatalog.token_length]
        exact if_pos ⟨rfl, Nat.le_add_left _ _, hwithin⟩
      obtain ⟨pages, hwalk, hlength, hflatten⟩ := ih hnext (.inr hmore) (by omega)
      refine ⟨_, .next hlisted hwalk, Nat.succ_le_succ hlength, ?_⟩
      rw [List.flatten_cons, hflatten, ← List.map_append, Nat.succ_mul, ← List.drop_drop,
        List.take_append_drop]
    · refine ⟨_, .last hlisted, Nat.succ_le_succ (Nat.zero_le _), ?_⟩
      have hshort : (catalog.tools.drop (page * limits.toolPageSize)).length ≤
          limits.toolPageSize := by
        rw [List.length_drop]
        rw [Nat.succ_mul] at hmore
        omega
      rw [List.flatten_cons, List.flatten_nil, List.append_nil, List.take_of_length_le hshort]

end

/-- The pages of an admitted catalog: from no cursor, the walk ends, on at most `maxToolPages`
    pages, and lists every tool once and in order; a cursor gives its page back, and is refused
    by a catalog with another token. -/
theorem pagination [DecidableEq τ] (hashing : Hashing) (limits : ToolLimits) (kind : ToolKind τ μ)
    {tools : List τ} {catalog : ToolList τ} (h : start hashing limits kind tools = .ok catalog)
    {session : Option (Except ListError (List τ))}
    (hsession : checkSession catalog session = .ok ()) :
    (∃ pages, Walk limits kind catalog session none pages ∧
      pages.length ≤ limits.maxToolPages) ∧
    (∀ pages, Walk limits kind catalog session none pages →
      pages.flatten = tools.map kind.present) ∧
    (∀ page, 1 ≤ page → page < limits.maxToolPages →
      decodeCursor limits catalog.catalogToken (encodeCursor catalog.catalogToken page) =
        .ok page) ∧
    ∀ (τ' μ' : Type) (otherHashing : Hashing) (otherLimits : ToolLimits)
      (otherKind : ToolKind τ' μ') (otherTools : List τ') (other : ToolList τ'),
      start otherHashing otherLimits otherKind otherTools = .ok other →
      other.catalogToken ≠ catalog.catalogToken → ∀ page,
      decodeCursor limits catalog.catalogToken (encodeCursor other.catalogToken page) =
        .error .invalidCursor := by
  obtain ⟨rfl, hcatalog⟩ := start_admitted h
  have hfirst : requestedPage limits catalog.catalogToken none = .ok 0 := rfl
  obtain ⟨pages, hwalk, hlength, hflatten⟩ := exists_walk kind hsession hcatalog
    limits.maxToolPages hfirst (.inl rfl) (Nat.zero_add _)
  refine ⟨⟨pages, hwalk, hlength⟩, fun pages' hwalk' => ?_, fun page hpos hlt => ?_,
    fun _ _ _ _ _ _ other hother hne page => ?_⟩
  · rw [hwalk'.unique hwalk, hflatten, Nat.zero_mul]
    rfl
  · rw [decodeCursor_encodeCursor hcatalog.token_isHex hcatalog.token_length]
    exact if_pos ⟨rfl, hpos, hlt⟩
  · have hadmitted := (start_admitted hother).2
    rw [decodeCursor_encodeCursor hadmitted.token_isHex hadmitted.token_length]
    exact if_neg fun hall => hne hall.1

/-- Tools that are no more than their numbers, named by them. -/
def numbered : ToolKind ℕ ℕ where
  entry n := (natText n, [])
  schemaBytes tools := some tools.length
  present := id

theorem standardTools_range : 1 ≤ 128 ∧ 128 ≤ 128 := by decide

/-- Limits of two tools on a page. -/
def twoOnAPage : ToolLimits where
  toolPageSize := 2
  maxToolPages := 64
  maxTools_range := standardTools_range

/-- The hashing of the examples, in which no text is told from another. -/
def constantHashing : Hashing where
  writer := .plain
  sha256 _ := ⟨List.replicate 64 48, isDigest_zeros⟩

/-- Three tools are on two pages. -/
theorem pagination_example : ∃ pages, Walk twoOnAPage numbered
    ⟨[7, 8, 9], List.replicate 24 48⟩ none none pages ∧ pages.flatten = [7, 8, 9] := by
  have h : start constantHashing twoOnAPage numbered [7, 8, 9] =
      .ok ⟨[7, 8, 9], List.replicate 24 48⟩ := rfl
  have hsession : checkSession (τ := ℕ) ⟨[7, 8, 9], List.replicate 24 48⟩ none = .ok () := rfl
  obtain ⟨⟨pages, hwalk, -⟩, hflatten, -⟩ :=
    pagination constantHashing twoOnAPage numbered h hsession
  exact ⟨pages, hwalk, hflatten pages hwalk⟩

end McpRuntime.Transport
