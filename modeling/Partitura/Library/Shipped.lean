import Partitura.Library

/-!
# The kits and tunings that come with the library
-/

namespace Partitura

open Yaml

namespace Shelf

def text (s : String) : Node := .scalar (.text s)

def entry (name description field : String) (value : Node) : Except Fault Node :=
  .ok (.mapping
    [(text "name", text name), (text "description", text description), (text field, value)])

/-- A kit whose symbols have a place on the staff. -/
def placedKit (name description : String) (notes : List (String × Int × Int)) :
    Except Fault Node :=
  entry name description "map" (.mapping (notes.map fun (s, position, midi) =>
    (text s, .list [.scalar (.int position), .scalar (.int midi)])))

/-- A kit whose symbols stand for a pitch alone. -/
def plainKit (name description : String) (notes : List (String × Int)) : Except Fault Node :=
  entry name description "map" (.mapping (notes.map fun (s, midi) =>
    (text s, .scalar (.int midi))))

def tuning (name description : String) (strings : List String) : Except Fault Node :=
  entry name description "strings" (.list (strings.map text))

def shipped : Shelf where
  kits := [
    plainKit "latin_perc" "Hand percussion from the General MIDI percussion key map" [
      ("bh", 60), ("bl", 61), ("cm", 62), ("co", 63), ("cl", 64), ("th", 65), ("tl", 66),
      ("ag", 67), ("al", 68), ("cb", 56), ("cl2", 75), ("sh", 70), ("gu", 73)],
    placedKit "rock_kit" "Five-piece rock kit with staff positions for grid rendering" [
      ("k", -3, 36), ("s", 1, 38), ("ss", 1, 37), ("h", 5, 42), ("ho", 5, 46), ("ph", -5, 44),
      ("c", 6, 49), ("r", 4, 51), ("t1", 3, 48), ("t2", 2, 45), ("t3", -1, 41)]]
  tunings := [
    tuning "bass_standard" "Standard 4-string bass" ["E1", "A1", "D2", "G2"],
    tuning "dadgad" "Open Dsus4 guitar tuning" ["D2", "A2", "D3", "G3", "A3", "D4"],
    tuning "drop_d" "Guitar with the low string dropped to D"
      ["D2", "A2", "D3", "G3", "B3", "E4"],
    tuning "ukulele" "Re-entrant soprano ukulele (G4 C4 E4 A4)" ["G4", "C4", "E4", "A4"]]

end Shelf

def Library.shipped : Library := { shelf := .shipped }

end Partitura
