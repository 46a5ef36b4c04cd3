import AwsMock.Foundation.Loop
import AwsMock.Core.Integers
import AwsMock.Core.SignatureText

/-! # Bodies in chunks

What `PrepareBody` makes of the body of a request, and what the service copies of it for an
object or a part. A body may be sent in chunks: each of them has a line with its size and its
signature, and an empty chunk ends them.
-/

namespace AwsMock.HttpUtils

open Http

def hasHeaderValue (request : Request) (name value : Bytes) : Bool :=
  hasHeader request name && getHeaderValue request name = value

end AwsMock.HttpUtils

namespace AwsMock.S3

open Foundation Machine Http HttpUtils

/-! ## Stream buffers -/

/-- Take the next character; there is -1 behind the last one. -/
def sbumpc : Bytes → Int × Bytes
  | [] => (-1, [])
  | c :: sb => (c.toNat, sb)

def sgetc : Bytes → Int
  | [] => -1
  | c :: _ => c.toNat

/-- The number of `boost::asio::error::eof`. -/
def eof : Int := 2

def bufferLen : Nat := 8092

/-- `StreamCopier` with the count that is left. -/
def streamCopier (stream : Bytes) (count : Int) : Bytes :=
  if 0 < count then
    let chunk := min bufferLen count.toNat
    let buffer := stream.take chunk
    if buffer.length < chunk then buffer
    else buffer ++ streamCopier (stream.drop chunk) (count - chunk)
  else []
termination_by count.toNat
decreasing_by
  have hbuffer : 0 < bufferLen := by decide
  omega

/-! ## The handler -/

structure Skip where
  count : Nat
  sb : Bytes
deriving DecidableEq

/-- One round of the loop. The counter is an `int`, as is the limit for bodies. -/
def skipRound (state : Skip) : Skip ⊕ Skip :=
  let (c, sb) := sbumpc state.sb
  if c = 13 then
    let (next, sb) := sbumpc sb
    .inr ⟨if next = 10 then state.count + 1 else state.count, sb⟩
  else if sgetc sb = eof then .inr ⟨state.count + 1, sb⟩
  else .inl ⟨state.count + 1, sb⟩

def isChunked (request : Request) : Bool :=
  hasHeaderValue request (ascii "content-encoding") (ascii "aws-chunked")

def decodedLength (request : Request) : Run Int :=
  Bytes.stol (getHeaderValue request (ascii "x-amz-decoded-content-length"))

/-- What follows the first line, then what follows the characters that were counted. -/
def skipped (body : Bytes) (decodedContentLength : Int) (state : Skip) : Run (Bytes × Int) :=
  -- A negative length is no size of a buffer.
  if decodedContentLength < 0 then .error .exception
  else .ok (state.sb ++ (body.drop state.count).take decodedContentLength.toNat,
    decodedContentLength)

/-- `PrepareBody`: the buffer and the length, when so many rounds are enough. -/
def prepareBody (fuel : Nat) (request : Request) : Option (Run (Bytes × Int)) :=
  if isChunked request then
    match decodedLength request with
    | .error fault => some (.error fault)
    | .ok decodedContentLength =>
      (Loop.rounds skipRound fuel ⟨0, request.body⟩).map (skipped request.body decodedContentLength)
  else some (.ok (request.body ++ request.body, request.body.length))

/-- What `UploadPart` copies. -/
def uploadPartStream (fuel : Nat) (request : Request) : Option (Run Bytes) :=
  (prepareBody fuel request).map fun prepared => do
    let (sb, contentLength) ← prepared
    return streamCopier sb contentLength

/-- What `PutObject` copies: the length is read again. -/
def putObjectStream (fuel : Nat) (request : Request) : Option (Run Bytes) :=
  (prepareBody fuel request).map fun prepared => do
    let (sb, contentLength) ← prepared
    let contentLength ← if hasHeaderValue request (ascii "Content-Encoding") (ascii "aws-chunked")
      then decodedLength request else .ok contentLength
    return streamCopier sb contentLength

def HandsOver (request : Request) (bytes : Bytes) : Prop :=
  (∃ fuel, putObjectStream fuel request = some (.ok bytes)) ∧
    ∃ fuel, uploadPartStream fuel request = some (.ok bytes)

/-- A number of rounds is enough, be it for a result or for an exception. -/
def Ends (request : Request) : Prop := ∃ fuel, (prepareBody fuel request).isSome

/-! ## The encoding -/

structure Chunk where
  data : Bytes
  signature : Bytes
  isHex : ∀ c ∈ signature, Bytes.hexValue c ≠ none

def crlf : Bytes := [13, 10]

def hexNumber (n : Nat) : Bytes :=
  if n < 16 then [Crypto.hexDigit false (UInt8.ofNat n)]
  else hexNumber (n / 16) ++ [Crypto.hexDigit false (UInt8.ofNat (n % 16))]

namespace Chunk

def header (chunk : Chunk) : Bytes :=
  hexNumber chunk.data.length ++ ascii ";chunk-signature=" ++ chunk.signature

def encode (chunk : Chunk) : Bytes := chunk.header ++ crlf ++ (chunk.data ++ crlf)

end Chunk

structure Upload where
  chunks : List Chunk
  last : Chunk
  isEmpty : last.data = []

namespace Upload

def data (upload : Upload) : Bytes := upload.chunks.flatMap Chunk.data

def encode (upload : Upload) : Bytes := upload.chunks.flatMap Chunk.encode ++ upload.last.encode

def rest (upload : Upload) : Upload := { upload with chunks := upload.chunks.tail }

end Upload

structure Carries (request : Request) (upload : Upload) : Prop where
  isChunked : isChunked request = true
  decodedLength : getHeaderValue request (ascii "x-amz-decoded-content-length") =
    Bytes.decimal upload.data.length
  body : request.body = upload.encode

/-! ## Copying -/

section Copying

theorem streamCopier_of_nonpos (stream : Bytes) {count : Int} (hcount : count ≤ 0) :
    streamCopier stream count = [] := by
  rw [streamCopier, if_neg (by omega)]

theorem streamCopier_eq_take (stream : Bytes) (count : Int) :
    streamCopier stream count = stream.take count.toNat := by
  induction stream, count using streamCopier.induct with
  | case1 stream count hcount chunk buffer hshort =>
    have hle : stream.length ≤ count.toNat := by
      rw [List.length_take] at hshort
      omega
    rw [streamCopier, if_pos hcount]
    dsimp only
    rw [if_pos hshort, List.take_of_length_le hle]
    exact List.take_of_length_le (by rw [List.length_take] at hshort; omega)
  | case2 stream count hcount chunk buffer hfull ih =>
    have hsum : count.toNat = chunk + (count - chunk).toNat := by omega
    rw [streamCopier, if_pos hcount]
    dsimp only
    rw [if_neg hfull, ih]
    conv_rhs => rw [hsum, List.take_add]
  | case3 stream count hcount =>
    rw [streamCopier_of_nonpos stream (by omega), Int.toNat_of_nonpos (by omega), List.take_zero]

end Copying

/-! ## Skipping the first line -/

section Skipping

variable {n : Nat} {c : UInt8} {line sb : Bytes}

theorem skipRound_nil : skipRound ⟨n, []⟩ = .inl ⟨n + 1, []⟩ := rfl

theorem skipRound_cons (hc : c ≠ 13) (hhead : sb.head? ≠ some 2) :
    skipRound ⟨n, c :: sb⟩ = .inl ⟨n + 1, sb⟩ := by
  have hreturn : ¬(c.toNat : Int) = 13 := by
    intro heq
    exact hc (UInt8.toNat_inj.mp (Int.ofNat.inj heq))
  have hnext : ¬sgetc sb = eof := by
    cases sb with
    | nil => decide
    | cons d sb =>
      intro heq
      exact hhead (congrArg some (UInt8.toNat_inj.mp (Int.ofNat.inj heq)))
  change (if (c.toNat : Int) = 13 then _ else if sgetc sb = eof then _ else _) = _
  rw [if_neg hreturn, if_neg hnext]

theorem exists_skipRound_return : ∃ state, skipRound ⟨n, 13 :: sb⟩ = .inr state := ⟨_, rfl⟩

theorem exists_skipRound_of_head (hc : c ≠ 13) (hhead : sb.head? = some 2) :
    ∃ state, skipRound ⟨n, c :: sb⟩ = .inr state := by
  have hreturn : ¬(c.toNat : Int) = 13 := by
    intro heq
    exact hc (UInt8.toNat_inj.mp (Int.ofNat.inj heq))
  obtain ⟨tail, rfl⟩ := List.head?_eq_some_iff.mp hhead
  exact ⟨_, if_neg hreturn⟩

theorem endsWith_line (hreturn : 13 ∉ line) (heof : 2 ∉ line) :
    Loop.EndsWith skipRound ⟨n, line ++ (crlf ++ sb)⟩ ⟨n + line.length + 1, sb⟩ := by
  induction line generalizing n with
  | nil => exact Loop.endsWith_of_leave rfl
  | cons c line ih =>
    rw [List.mem_cons, not_or] at hreturn heof
    have hhead : (line ++ (crlf ++ sb)).head? ≠ some 2 := by
      cases line with
      | nil => exact fun heq => nomatch heq
      | cons d line => exact fun heq => heof.2 (Option.some.inj heq ▸ List.mem_cons_self)
    have hgo := @skipRound_cons n c (line ++ (crlf ++ sb)) (Ne.symm hreturn.1) hhead
    rw [List.cons_append, Loop.endsWith_iff_of_go hgo, List.length_cons,
      show n + (line.length + 1) + 1 = n + 1 + line.length + 1 by omega]
    exact ih hreturn.2 heof.2

theorem not_ends_nil : ¬Loop.Ends skipRound ⟨n, []⟩ := by
  refine @Loop.not_ends_of_invariant _ _ _ _ (fun state => state.sb = []) ?_ rfl
  rintro ⟨count, sb⟩ hstate
  obtain rfl : sb = [] := hstate
  exact ⟨_, skipRound_nil, rfl⟩

theorem ends_skipRound_iff : Loop.Ends skipRound ⟨n, sb⟩ ↔ 13 ∈ sb ∨ 2 ∈ sb.tail := by
  induction sb generalizing n with
  | nil =>
    refine iff_of_false not_ends_nil ?_
    rintro (hmem | hmem)
    · cases hmem
    · cases hmem
  | cons c sb ih =>
    by_cases hc : c = 13
    · subst hc
      obtain ⟨state, hleave⟩ := @exists_skipRound_return n sb
      exact iff_of_true (Loop.ends_of_leave hleave) (.inl List.mem_cons_self)
    · by_cases hhead : sb.head? = some 2
      · obtain ⟨state, hleave⟩ := @exists_skipRound_of_head n c sb hc hhead
        exact iff_of_true (Loop.ends_of_leave hleave) (.inr (List.mem_of_mem_head? hhead))
      · have htail : 2 ∈ sb ↔ 2 ∈ sb.tail := by
          cases sb with
          | nil => exact Iff.rfl
          | cons d sb =>
            have hd : (2 : UInt8) ≠ d := fun heq => hhead (heq ▸ rfl)
            rw [List.mem_cons, or_iff_right hd, List.tail_cons]
        rw [Loop.ends_iff_of_go (skipRound_cons hc hhead), ih, List.mem_cons,
          or_iff_right (Ne.symm hc), List.tail_cons, htail]

end Skipping

/-! ## Preparing a body -/

section Preparing

variable {request : Request} {upload : Upload} {bytes sb : Bytes} {length : Int}

theorem hasHeaderValue_eq_isChunked (request : Request) :
    hasHeaderValue request (ascii "Content-Encoding") (ascii "aws-chunked") =
      isChunked request := by
  have hname : Bytes.toLower (ascii "Content-Encoding") =
      Bytes.toLower (ascii "content-encoding") := by decide
  have hfind : request.find (ascii "Content-Encoding") =
      request.find (ascii "content-encoding") := by
    simp only [Request.find, Bytes.iequals, hname]
  unfold isChunked hasHeaderValue getHeaderValue hasHeader Request.get
  rw [hfind]

theorem prepareBody_of_plain (hplain : isChunked request = false) (fuel : Nat) :
    prepareBody fuel request = some (.ok (request.body ++ request.body, request.body.length)) := by
  rw [prepareBody, hplain]
  rfl

section

variable (hchunked : isChunked request = true)
include hchunked

theorem prepareBody_of_chunked (hlength : decodedLength request = .ok length) (fuel : Nat) :
    prepareBody fuel request =
      (Loop.rounds skipRound fuel ⟨0, request.body⟩).map (skipped request.body length) := by
  rw [prepareBody, if_pos hchunked, hlength]

theorem prepareBody_of_error {fault : Fault}
    (hlength : decodedLength request = .error fault) (fuel : Nat) :
    prepareBody fuel request = some (.error fault) := by
  rw [prepareBody, if_pos hchunked, hlength]

theorem decodedLength_of_prepareBody {fuel : Nat}
    (hprepared : prepareBody fuel request = some (.ok (sb, length))) :
    decodedLength request = .ok length := by
  cases hdecoded : decodedLength request with
  | error fault =>
    rw [prepareBody_of_error hchunked hdecoded] at hprepared
    cases hprepared
  | ok decodedContentLength =>
    rw [prepareBody_of_chunked hchunked hdecoded] at hprepared
    obtain ⟨state, -, hskipped⟩ := Option.map_eq_some_iff.mp hprepared
    rw [skipped] at hskipped
    split at hskipped
    next => cases hskipped
    next =>
      obtain ⟨-, hlength⟩ := Prod.mk.inj (Except.ok.inj hskipped)
      rw [hlength]

end

theorem handsOver_iff : HandsOver request bytes ↔
    ∃ fuel sb length, prepareBody fuel request = some (.ok (sb, length)) ∧
      sb.take length.toNat = bytes := by
  constructor
  · rintro ⟨-, fuel, hcopied⟩
    obtain ⟨prepared, hprepared, hcopied⟩ := Option.map_eq_some_iff.mp hcopied
    obtain ⟨⟨sb, length⟩, rfl, hcopied⟩ := bind_eq_ok.mp hcopied
    refine ⟨fuel, sb, length, hprepared, ?_⟩
    rw [← streamCopier_eq_take]
    exact Except.ok.inj hcopied
  · rintro ⟨fuel, sb, length, hprepared, hcopied⟩
    rw [← streamCopier_eq_take] at hcopied
    constructor
    · refine ⟨fuel, ?_⟩
      rw [putObjectStream, hprepared, Option.map_some, ok_bind]
      dsimp only
      rw [hasHeaderValue_eq_isChunked]
      cases hchunked : isChunked request with
      | false =>
        change some (Except.ok (streamCopier sb length)) = _
        rw [hcopied]
      | true =>
        rw [if_pos rfl, decodedLength_of_prepareBody hchunked hprepared, ok_bind, hcopied]
        rfl
    · refine ⟨fuel, ?_⟩
      rw [uploadPartStream, hprepared, Option.map_some, ok_bind]
      dsimp only
      rw [hcopied]
      rfl

theorem handsOver_of_plain (hplain : isChunked request = false) :
    HandsOver request request.body := by
  refine handsOver_iff.mpr ⟨0, _, _, prepareBody_of_plain hplain 0, ?_⟩
  rw [Int.toNat_natCast, List.take_left]

theorem ends_iff : Ends request ↔
    (isChunked request = true → (∃ length, decodedLength request = .ok length) →
      13 ∈ request.body ∨ 2 ∈ request.body.tail) := by
  cases hchunked : isChunked request with
  | false =>
    refine iff_of_true ⟨0, ?_⟩ fun htrue => nomatch htrue
    rw [prepareBody_of_plain hchunked]
    rfl
  | true =>
    cases hlength : decodedLength request with
    | error fault =>
      refine iff_of_true ⟨0, ?_⟩ ?_
      · rw [prepareBody_of_error hchunked hlength]
        rfl
      · rintro - ⟨length, heq⟩
        cases heq
    | ok length =>
      have hloop : Ends request ↔ Loop.Ends skipRound ⟨0, request.body⟩ := by
        simp only [Ends, prepareBody_of_chunked hchunked hlength, Option.isSome_map,
          Option.isSome_iff_exists]
        exact exists_comm
      rw [hloop, ends_skipRound_iff]
      exact ⟨fun hend _ _ => hend, fun hend => hend rfl ⟨length, rfl⟩⟩

end Preparing

/-! ## Bodies in chunks -/

section Decoding

variable {request : Request} {upload : Upload} {bytes : Bytes}

theorem hexDigit_ne {n : Nat} (hn : n < 16) :
    Crypto.hexDigit false (UInt8.ofNat n) ≠ 13 ∧ Crypto.hexDigit false (UInt8.ofNat n) ≠ 2 := by
  have hall : ∀ n : Fin 16, Crypto.hexDigit false (UInt8.ofNat n) ≠ 13 ∧
      Crypto.hexDigit false (UInt8.ofNat n) ≠ 2 := by decide
  exact hall ⟨n, hn⟩

theorem not_mem_hexNumber (n : Nat) : 13 ∉ hexNumber n ∧ 2 ∉ hexNumber n := by
  induction n using hexNumber.induct with
  | case1 n hn =>
    obtain ⟨hreturn, heof⟩ := hexDigit_ne hn
    rw [hexNumber, if_pos hn, List.mem_singleton, List.mem_singleton]
    exact ⟨Ne.symm hreturn, Ne.symm heof⟩
  | case2 n hn ih =>
    obtain ⟨hreturn, heof⟩ := hexDigit_ne (Nat.mod_lt n (by decide : 0 < 16))
    rw [hexNumber, if_neg hn, List.mem_append, List.mem_append, List.mem_singleton,
      List.mem_singleton]
    refine ⟨?_, ?_⟩
    · rintro (hmem | heq)
      · exact ih.1 hmem
      · exact hreturn heq.symm
    · rintro (hmem | heq)
      · exact ih.2 hmem
      · exact heof heq.symm

theorem Chunk.not_mem_header (chunk : Chunk) : 13 ∉ chunk.header ∧ 2 ∉ chunk.header := by
  obtain ⟨hreturn, heof⟩ := not_mem_hexNumber chunk.data.length
  have hname : 13 ∉ ascii ";chunk-signature=" ∧ 2 ∉ ascii ";chunk-signature=" := by decide
  simp only [Chunk.header, List.mem_append, not_or]
  exact ⟨⟨⟨hreturn, hname.1⟩, fun hmem => chunk.isHex _ hmem rfl⟩,
    ⟨⟨heof, hname.2⟩, fun hmem => chunk.isHex _ hmem rfl⟩⟩

theorem length_data_le (upload : Upload) : upload.data.length ≤ upload.encode.length := by
  obtain ⟨chunks, last, hempty⟩ := upload
  simp only [Upload.data, Upload.encode, List.length_append]
  induction chunks with
  | nil => exact Nat.zero_le _
  | cons chunk chunks ih =>
    rw [List.flatMap_cons, List.flatMap_cons, List.length_append, List.length_append,
      Chunk.encode, List.length_append, @List.length_append _ chunk.data]
    omega

theorem exists_encode_eq (upload : Upload) : ∃ line tail : Bytes, 13 ∉ line ∧ 2 ∉ line ∧
    upload.encode = line ++ (crlf ++ tail) ∧ (tail.take upload.data.length = upload.data ↔
        upload.rest.data <+: crlf ++ upload.rest.encode) ∧ upload.data.length ≤ tail.length := by
  obtain ⟨chunks, last, hempty⟩ := upload
  cases chunks with
  | nil =>
    obtain ⟨hreturn, heof⟩ := last.not_mem_header
    refine ⟨last.header, last.data ++ crlf, hreturn, heof, ?_, ?_, Nat.zero_le _⟩
    · exact List.append_assoc _ _ _
    · exact iff_of_true rfl List.nil_prefix
  | cons chunk chunks =>
    obtain ⟨hreturn, heof⟩ := chunk.not_mem_header
    let rest : Upload := ⟨chunks, last, hempty⟩
    have hdata : Upload.data ⟨chunk :: chunks, last, hempty⟩ = chunk.data ++ rest.data :=
      List.flatMap_cons
    have hle := length_data_le rest
    refine ⟨chunk.header, chunk.data ++ (crlf ++ rest.encode), hreturn, heof, ?_, ?_, ?_⟩
    · rw [Upload.encode, List.flatMap_cons, List.append_assoc, Chunk.encode,
        List.append_assoc, List.append_assoc, List.append_assoc chunk.data]
      rfl
    · rw [hdata, List.length_append, List.take_length_add_append, List.append_cancel_left_eq,
        List.prefix_iff_eq_take]
      exact eq_comm
    · rw [hdata, List.length_append, List.length_append, List.length_append]
      omega

theorem handsOver_iff_of_carries (hcarries : Carries request upload) :
    HandsOver request upload.data ↔ upload.data.length < 9223372036854775808 ∧
      upload.rest.data <+: crlf ++ upload.rest.encode := by
  have hread : decodedLength request = if upload.data.length < 9223372036854775808 then
      .ok ↑upload.data.length else .error .exception := by
    rw [decodedLength, hcarries.decodedLength, Bytes.stol_decimal]
  by_cases hlt : upload.data.length < 9223372036854775808
  · rw [if_pos hlt] at hread
    obtain ⟨line, tail, hreturn, heof, hencode, hprefix, hle⟩ := exists_encode_eq upload
    have hline := @endsWith_line 0 line tail hreturn heof
    rw [← hencode, ← hcarries.body] at hline
    rw [handsOver_iff, and_iff_right hlt, ← hprefix]
    have hskipped : ∀ state, skipped request.body upload.data.length state = .ok
        (state.sb ++ (request.body.drop state.count).take upload.data.length,
          (upload.data.length : Int)) := by
      intro state
      rw [skipped, if_neg (by omega), Int.toNat_natCast]
    constructor
    · rintro ⟨fuel, sb, length, hprepared, hcopied⟩
      rw [prepareBody_of_chunked hcarries.isChunked hread] at hprepared
      obtain ⟨state, hstate, hprepared⟩ := Option.map_eq_some_iff.mp hprepared
      obtain rfl := Loop.EndsWith.unique ⟨fuel, hstate⟩ hline
      rw [hskipped] at hprepared
      obtain ⟨rfl, rfl⟩ := Prod.mk.inj (Except.ok.inj hprepared)
      rwa [Int.toNat_natCast, List.take_append_of_le_length hle] at hcopied
    · intro hdata
      obtain ⟨fuel, hstate⟩ := hline
      refine ⟨fuel, tail ++ (request.body.drop (0 + line.length + 1)).take upload.data.length,
        upload.data.length, ?_, ?_⟩
      · rw [prepareBody_of_chunked hcarries.isChunked hread, hstate, Option.map_some, hskipped]
      · rwa [Int.toNat_natCast, List.take_append_of_le_length hle]
  · rw [if_neg hlt] at hread
    refine iff_of_false ?_ fun hboth => hlt hboth.1
    intro hover
    obtain ⟨fuel, sb, length, hprepared, -⟩ := handsOver_iff.mp hover
    rw [prepareBody_of_error hcarries.isChunked hread] at hprepared
    cases hprepared

end Decoding

/-- An upload arrives if what follows its first chunk in the encoding happens to begin with the
data of the other ones; plain bodies always do. The loop ends at a carriage return and at the
character that has the number of an error. -/
theorem prepareBody_correct_iff (request : Request) :
    (∀ upload, Carries request upload → (HandsOver request upload.data ↔
      upload.data.length < 9223372036854775808 ∧ upload.rest.data <+: crlf ++ upload.rest.encode)) ∧
    (isChunked request = false → HandsOver request request.body) ∧
    (Ends request ↔ (isChunked request = true → (∃ length, decodedLength request = .ok length) →
        13 ∈ request.body ∨ 2 ∈ request.body.tail)) :=
  ⟨fun _ hcarries => handsOver_iff_of_carries hcarries, handsOver_of_plain, ends_iff⟩

/-! ## Two chunks -/

def chunkedRequest (decodedLength : Nat) (body : Bytes) : Request where
  methodString := ascii "PUT"
  target := ascii "/bucket/key"
  fields := [(ascii "content-encoding", ascii "aws-chunked"),
    (ascii "x-amz-decoded-content-length", Bytes.decimal decodedLength)]
  body := body

def zeroSigned (data : Bytes) : Chunk where
  data := data
  signature := List.replicate 64 48
  isHex c hmem := by
    rw [List.eq_of_mem_replicate hmem]
    decide

def zeroUpload (datas : List Bytes) : Upload := ⟨datas.map zeroSigned, zeroSigned [], rfl⟩

theorem carries_zeroUpload (datas : List Bytes) :
    Carries (chunkedRequest (zeroUpload datas).data.length (zeroUpload datas).encode)
      (zeroUpload datas) :=
  ⟨rfl, rfl, rfl⟩

theorem handsOver_one_chunk :
    HandsOver (chunkedRequest 3 (zeroUpload [ascii "abc"]).encode) (ascii "abc") :=
  ((prepareBody_correct_iff _).1 _ (carries_zeroUpload [ascii "abc"])).mpr
    ⟨by decide, List.nil_prefix⟩

/-- Of two chunks the second one is not found, and three characters are skipped forever. -/
theorem not_prepareBody_correct :
    (¬∀ request upload, Carries request upload → HandsOver request upload.data) ∧
      ¬∀ request, Ends request := by
  constructor
  · intro hall
    have hover := hall _ _ (carries_zeroUpload [ascii "a", ascii "b"])
    rw [handsOver_iff_of_carries (carries_zeroUpload _)] at hover
    obtain ⟨tail, heq⟩ := hover.2
    exact absurd (List.cons.inj heq).1 (by decide)
  · intro hall
    have hend := hall (chunkedRequest 3 (ascii "abc"))
    rw [ends_iff] at hend
    exact absurd (hend rfl ⟨3, Bytes.stol_decimal 3⟩) (by decide)

end AwsMock.S3
