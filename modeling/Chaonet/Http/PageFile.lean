import Chaonet.Foundation.Chunked
import Chaonet.Foundation.Loop
import Chaonet.Foundation.Numeral
import Chaonet.Buffer.Lines
import Chaonet.Http.HttpRequest

/-!
# Sending a page

`sendPageFile` sends a file in chunks.  What `fread` returns at the end of the file is sent as a
chunk too, which ends the body; the loop is left then, and the end of a body is sent again.  So the
bytes are never one body and nothing else (`sendPageFile_not_oneBody`).
-/

namespace Chaonet

open Foundation

namespace HttpServer

/-- `kBufSize`. -/
def kBufSize : Nat := 65536

/-! ## Hexadecimal sizes -/

/-- A digit as `std::hex` writes it. -/
def hexDigit (d : Nat) : UInt8 :=
  if d < 10 then char '0' + UInt8.ofNat d else char 'a' + UInt8.ofNat (d - 10)

/-- The number that a hexadecimal digit stands for. -/
def hexValue (c : UInt8) : Option Nat :=
  if char '0' ≤ c ∧ c ≤ char '9' then some (c - char '0').toNat
  else if char 'a' ≤ c ∧ c ≤ char 'f' then some (c - char 'a' + 10).toNat
  else if char 'A' ≤ c ∧ c ≤ char 'F' then some (c - char 'A' + 10).toNat
  else none

def hexadecimal : Numeral UInt8 where
  base := 16
  one_lt := by decide
  digit := hexDigit
  value := hexValue
  value_digit := by decide

theorem hex_unbroken (n : Nat) : ¬kCRLF <:+: hexadecimal.write n := by
  intro hcrlf
  have hcr : (13 : UInt8) ∈ hexadecimal.write n := hcrlf.subset (by decide)
  obtain ⟨d, hd, heq⟩ := hexadecimal.exists_digit_of_mem_write hcr
  have hdigit : ∀ d < 16, (13 : UInt8) ≠ hexDigit d := by decide
  exact hdigit d hd heq

/-- Chunks as HTTP has them. -/
def chunked : ChunkFormat UInt8 where
  sep := kCRLF
  sep_ne_nil := Buffer.kCRLF_ne_nil
  writeSize := hexadecimal.write
  readSize := hexadecimal.read
  readSize_writeSize := hexadecimal.read_write
  next_writeSize n rest := Buffer.lines_next (hex_unbroken n) rest

/-! ## The file -/

/-- What one call of `fread` finds before the end of the file. -/
structure Piece where
  bytes : Bytes
  nonempty : bytes ≠ []
  length_le : bytes.length ≤ kBufSize

/-- `::fread(chunck, 1, sizeof(chunck), fp)`, and the file behind what it has read. -/
def fread : List Piece → Bytes × List Piece
  | [] => ([], [])
  | piece :: fp => (piece.bytes, fp)

/-- The bytes of a file. -/
def fileContent (fp : List Piece) : Bytes := (fp.map Piece.bytes).flatten

/-- The body of the loop of `sendPageFile`; an event is what is passed to `send`. -/
def sendPageFileStep (fp : List Piece) : Traced Bytes (List Piece ⊕ Unit) := do
  let (chunck, fp) := fread fp
  let nread := chunck.length
  Traced.emit (hexadecimal.write nread ++ kCRLF)
  Traced.emit (chunck ++ kCRLF)
  pure (if 0 < nread then .inl fp else .inr ())

/-- `sendPageFile(conn, fp)` has passed `sends` to `send`. -/
def SendPageFile (fp : List Piece) (sends : List Bytes) : Prop :=
  ∃ chunks, Loop sendPageFileStep fp chunks () ∧
    sends = chunks ++ [ascii "0\r\n", ascii "\r\n"]

/-- A decoder of chunked bodies finds the content, and nothing behind it. -/
def OneBody (content bytes : Bytes) : Prop := chunked.decode bytes = some (content, [])

/-- Every piece is sent as a chunk, and the end of the file as a chunk without data. -/
theorem sendPageFile_loop (fp : List Piece) :
    ∃ chunks, Loop sendPageFileStep fp chunks () ∧
      chunks.flatten = (fp.map Piece.bytes).flatMap chunked.chunk ++ chunked.chunk [] := by
  induction fp with
  | nil =>
      -- At the end of the file the chunk of no bytes is sent before `nread` is tested.
      refine ⟨_, .exit rfl, ?_⟩
      simp [ChunkFormat.chunk, chunked, Traced.emit]
  | cons piece fp ih =>
      obtain ⟨chunks, hloop, hflatten⟩ := ih
      have hpos : 0 < piece.bytes.length := List.length_pos_iff.mpr piece.nonempty
      have hstep : sendPageFileStep (piece :: fp) =
          ⟨.inl fp, [hexadecimal.write piece.bytes.length ++ kCRLF, piece.bytes ++ kCRLF]⟩ := by
        simp [sendPageFileStep, fread, Traced.emit, bind, pure, hpos]
      refine ⟨_, .again hstep hloop, ?_⟩
      rw [List.flatten_append, hflatten, List.map_cons, List.flatMap_cons]
      simp [ChunkFormat.chunk, chunked]

/-- What a decoder finds: the content of the file, and the end of another body. -/
theorem SendPageFile.decode {fp : List Piece} {sends : List Bytes} (h : SendPageFile fp sends) :
    chunked.decode sends.flatten = some (fileContent fp, ascii "0\r\n\r\n") := by
  obtain ⟨chunks, hloop, rfl⟩ := h
  obtain ⟨chunks', hloop', hflatten⟩ := sendPageFile_loop fp
  obtain ⟨rfl, -⟩ := hloop.unique hloop'
  have hpieces : ∀ bytes ∈ fp.map Piece.bytes, bytes ≠ [] := by
    intro bytes hbytes
    obtain ⟨piece, -, rfl⟩ := List.mem_map.mp hbytes
    exact piece.nonempty
  have hend : [ascii "0\r\n", ascii "\r\n"].flatten = ascii "0\r\n\r\n" := by decide
  rw [List.flatten_append, hflatten, hend, chunked.decode_chunks hpieces, fileContent]

theorem SendPageFile.not_oneBody {fp : List Piece} {sends : List Bytes}
    (h : SendPageFile fp sends) : ¬OneBody (fileContent fp) sends.flatten := by
  intro hbody
  rw [OneBody, h.decode] at hbody
  have hrest : ascii "0\r\n\r\n" = [] := congrArg Prod.snd (Option.some.inj hbody)
  exact absurd hrest (by decide)

/-- **How a page is sent.**  For every file, in whatever pieces it is read, `sendPageFile` returns.
A decoder finds the content of the file and leaves the end of another body, so that what was sent
is not one body. -/
theorem sendPageFile_not_oneBody (fp : List Piece) :
    (∃ sends, SendPageFile fp sends) ∧ ∀ sends, SendPageFile fp sends →
      ¬OneBody (fileContent fp) sends.flatten ∧
        chunked.decode sends.flatten = some (fileContent fp, ascii "0\r\n\r\n") := by
  obtain ⟨chunks, hloop, -⟩ := sendPageFile_loop fp
  exact ⟨⟨_, chunks, hloop, rfl⟩, fun _ hsends => ⟨hsends.not_oneBody, hsends.decode⟩⟩

/-- For an empty file the end of a body is sent twice. -/
theorem not_oneBody_empty : ∃ sends, SendPageFile [] sends ∧ ¬OneBody [] sends.flatten := by
  obtain ⟨chunks, hloop, -⟩ := sendPageFile_loop []
  have hsends : SendPageFile [] (chunks ++ [ascii "0\r\n", ascii "\r\n"]) := ⟨chunks, hloop, rfl⟩
  exact ⟨_, hsends, hsends.not_oneBody⟩

end HttpServer
end Chaonet
