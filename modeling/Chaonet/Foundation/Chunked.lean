import Chaonet.Foundation.Extraction

/-!
# Bodies that are sent in chunks

A chunk is its size, a separator, the data and a separator again; the size zero ends the body.
`ChunkFormat` fixes the separator and how a size is written and read.  `decode` reads the chunks of
a body, and what follows the body stays (`decode_chunks`).
-/

namespace Chaonet
namespace Foundation

structure ChunkFormat (α : Type*) [DecidableEq α] where
  sep : List α
  sep_ne_nil : sep ≠ []
  writeSize : Nat → List α
  readSize : List α → Option Nat
  readSize_writeSize (n : Nat) : readSize (writeSize n) = some n
  /-- The separator is found where the size ends. -/
  next_writeSize (n : Nat) (rest : List α) :
    (delimited sep sep_ne_nil).next (writeSize n ++ sep ++ rest) = some (writeSize n, rest)

namespace ChunkFormat

variable {α : Type*} [DecidableEq α] (F : ChunkFormat α)

def chunk (data : List α) : List α := F.writeSize data.length ++ F.sep ++ data ++ F.sep

/-- Read chunks up to the first one of size zero: their data, and what comes behind. -/
def decode (s : List α) : Option (List α × List α) :=
  match _hnext : (delimited F.sep F.sep_ne_nil).next s with
  | none => none
  | some (line, rest) =>
      match F.readSize line with
      | none => none
      | some n =>
          let data := rest.take n
          let behind := rest.drop n
          if data.length = n ∧ F.sep <+: behind then
            if n = 0 then some ([], behind.drop F.sep.length)
            else (decode (behind.drop F.sep.length)).map fun body => (data ++ body.1, body.2)
          else none
termination_by s.length
decreasing_by
  have hshorter := (delimited F.sep F.sep_ne_nil).shorter _hnext
  simp only [List.length_drop]
  omega

theorem decode_chunk (data rest : List α) :
    F.decode (F.chunk data ++ rest) =
      if data = [] then some ([], rest)
      else (F.decode rest).map fun body => (data ++ body.1, body.2) := by
  have hnext : (delimited F.sep F.sep_ne_nil).next (F.chunk data ++ rest) =
      some (F.writeSize data.length, data ++ (F.sep ++ rest)) := by
    have hchunk : F.chunk data ++ rest =
        F.writeSize data.length ++ F.sep ++ (data ++ (F.sep ++ rest)) := by
      simp [chunk]
    rw [hchunk, F.next_writeSize]
  rw [decode]
  split
  · next hnone => simp [hnext] at hnone
  · next line behind hsome =>
      rw [hnext] at hsome
      obtain ⟨rfl, rfl⟩ := Prod.mk.inj (Option.some.inj hsome)
      simp [F.readSize_writeSize]

/-- **What is sent in chunks is read as it was**, and nothing of what follows it is taken. -/
theorem decode_chunks {pieces : List (List α)} (h : ∀ piece ∈ pieces, piece ≠ [])
    (rest : List α) :
    F.decode (pieces.flatMap F.chunk ++ F.chunk [] ++ rest) = some (pieces.flatten, rest) := by
  induction pieces with
  | nil => simp [decode_chunk]
  | cons piece pieces ih =>
      have hpiece := h piece List.mem_cons_self
      have hpieces := ih fun p hp => h p (List.mem_cons_of_mem _ hp)
      rw [List.append_assoc] at hpieces
      rw [List.flatMap_cons, List.append_assoc, List.append_assoc, decode_chunk, if_neg hpiece,
        hpieces, Option.map_some, List.flatten_cons]

end ChunkFormat
end Foundation
end Chaonet
