import BlockTemplate.Reference.Parse

/-!
# Texts with tags

A text is cut into chunks, and the chunks are written as the text that they come from.

## Key results

- `toList_chunksSource_map_toChunk`: chunks are written as the pieces that they are made of
- `chunksSource_embeddedChunks`: a plain text is written as it was read
-/

namespace BlockTemplate

namespace Piece

/-- The characters of a piece, a tag in its braces. -/
def chars : Piece (List Char) → List Char
  | literal chars => chars
  | found body => '{' :: body ++ ['}']

/-- The chunk that a piece is, a tag parsed. -/
def toChunk : Piece (List Char) → Chunk
  | literal chars => .literal (String.ofList chars)
  | found body => .tag (Reference.parse body)

end Piece

theorem Reference.source_parse (source : List Char) :
    (Reference.parse source).source = .text (String.ofList source) := by
  rw [Reference.parse]
  rfl

theorem Piece.toList_toSource_toChunk (piece : Piece (List Char)) :
    piece.toChunk.toSource.toList = piece.chars := by
  cases piece with
  | literal chars => simp [toChunk, Chunk.toSource, Piece.chars]
  | found body =>
    simp [toChunk, Chunk.toSource, Reference.toSource, Reference.source_parse, Json.shown,
      Piece.chars]

/-- Chunks are written as the pieces that they are made of. -/
theorem toList_chunksSource_map_toChunk (pieces : List (Piece (List Char))) :
    (chunksSource (pieces.map Piece.toChunk)).toList = pieces.flatMap Piece.chars := by
  rw [chunksSource, String.toList_join, List.map_map, List.flatMap_map]
  congr 1
  funext piece
  exact piece.toList_toSource_toChunk

theorem flatMap_chars_embeddedPieces (text : List Char) :
    (embeddedPieces text).flatMap Piece.chars = text := by
  refine flatMap_cutPieces (fun _ => rfl) ?_ text
  intro t body after h
  rw [eq_of_embeddedTag? h, Piece.chars, List.append_assoc, List.singleton_append]

theorem chunksOf_parse (text : List Char) :
    chunksOf text (fun s _ => Reference.parse s) = (embeddedPieces text).map Piece.toChunk := by
  have hchunks : chunksOf text (fun s _ => Reference.parse s)
      = (embeddedPieces text).attach.map fun piece => piece.1.toChunk := by
    rw [chunksOf]
    congr 1
    funext ⟨piece, h⟩
    cases piece <;> rfl
  rw [hchunks, List.attach_map_val]

theorem embeddedChunks_ofList (text : List Char) :
    embeddedChunks (String.ofList text) = chunksOf text fun s _ => Reference.parse s := by
  rw [embeddedChunks, chunksOf_parse, String.toList_ofList, chunksOf_parse]

/-- A plain text is written as it was read. -/
theorem chunksSource_embeddedChunks (text : String) :
    chunksSource (embeddedChunks text) = text := by
  rw [← String.toList_inj, embeddedChunks, chunksOf_parse, toList_chunksSource_map_toChunk,
    flatMap_chars_embeddedPieces]

end BlockTemplate
