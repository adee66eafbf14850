import GradualScript.Proofs.Machine.Discipline

/-!
# What is printed

A value is printed in pieces, and a sink that does not take a piece as a whole gets none of those
behind it. Still it does not matter how a text is cut into pieces: `Sink.writeAll_eq` says that the
sink ends with the same bytes as if the text had been written at once. With this, what is left of
some printed values is the first bytes of their texts.
-/

namespace GradualScript

/-! ## Pieces of a text -/

namespace Sink

variable {sink : Sink} {text : String} {written more : ByteArray} {limit : Nat}

theorem write_whole (fits : sink.room text.toUTF8.size = text.toUTF8.size) :
    sink.write text = ({ sink with written := sink.written ++ text.toUTF8 }, true) := by
  simp only [write, fits, ByteArray.extract_zero_size, decide_true]

theorem write_short (short : sink.room text.toUTF8.size ≠ text.toUTF8.size) :
    sink.write text = ({ sink with
      written := sink.written ++ text.toUTF8.extract 0 (sink.room text.toUTF8.size) }, false) := by
  simp only [write, short, decide_false]

theorem extract_of_size_le (all : written.size ≤ limit) : written.extract 0 limit = written := by
  have whole := ByteArray.extract_zero_max_size (a := written) (i := limit)
  rwa [Nat.max_eq_left all] at whole

/-- What comes behind the first bytes does not count. -/
theorem extract_append_of_le (few : limit ≤ written.size) :
    (written ++ more).extract 0 limit = written.extract 0 limit := by
  rw [ByteArray.extract_append, Nat.zero_sub, Nat.sub_eq_zero_of_le few, ByteArray.extract_same,
    ByteArray.append_empty]

theorem room_le (sink : Sink) (count : Nat) : sink.room count ≤ count := by
  unfold room
  split
  · exact Nat.min_le_left _ _
  · exact Nat.le_refl _

/-- After a text that fits there is so much less room, and after one that does not there is none. -/
theorem room_add (sink : Sink) (written : ByteArray) (count : Nat) :
    sink.room (written.size + count) =
      if sink.room written.size = written.size then
        written.size + Sink.room { sink with written := sink.written ++ written } count
      else sink.room written.size := by
  rcases sink with ⟨limit, before⟩
  cases limit with
  | none => simp only [room, if_true]
  | some limit =>
      simp only [room, ByteArray.size_append]
      split <;> omega

/-- Two texts are written as one, unless the first is refused. -/
theorem write_append (sink : Sink) (first second : String) :
    sink.write (first ++ second) =
      if (sink.write first).2 then (sink.write first).1.write second
      else ((sink.write first).1, false) := by
  have bytes : (first ++ second).toUTF8 = first.toUTF8 ++ second.toUTF8 :=
    String.toByteArray_append
  have room := sink.room_add first.toUTF8 second.toUTF8.size
  rw [← ByteArray.size_append, ← bytes] at room
  by_cases fits : sink.room first.toUTF8.size = first.toUTF8.size
  · rw [write_whole fits, if_pos rfl]
    rw [if_pos fits] at room
    by_cases also : Sink.room { sink with written := sink.written ++ first.toUTF8 }
        second.toUTF8.size = second.toUTF8.size
    · rw [also, ← ByteArray.size_append, ← bytes] at room
      rw [write_whole also, write_whole room, bytes, ByteArray.append_assoc]
    · have short : sink.room (first ++ second).toUTF8.size ≠ (first ++ second).toUTF8.size := by
        rw [room, bytes, ByteArray.size_append]
        omega
      rw [write_short also, write_short short, room, bytes, ByteArray.extract_append,
        extract_of_size_le (Nat.le_add_right _ _), Nat.zero_sub, Nat.add_sub_cancel_left,
        ByteArray.append_assoc]
  · rw [if_neg fits] at room
    have short : sink.room (first ++ second).toUTF8.size ≠ (first ++ second).toUTF8.size := by
      have le := sink.room_le first.toUTF8.size
      rw [room, bytes, ByteArray.size_append]
      omega
    rw [write_short fits, write_short short, room, bytes,
      extract_append_of_le (sink.room_le _)]
    rfl

/-- Texts are written in turn as they are at once. -/
theorem writeAll_eq (sink : Sink) (texts : List String) :
    sink.writeAll texts = sink.write (String.join texts) := by
  induction texts generalizing sink with
  | nil =>
      have fits : sink.room "".toUTF8.size = "".toUTF8.size := Nat.le_zero.mp (sink.room_le 0)
      rw [String.join_nil, write_whole fits]
      simp only [writeAll, String.toUTF8_eq_toByteArray, String.toByteArray_empty,
        ByteArray.append_empty]
  | cons text texts ih => rw [String.join_cons, write_append, writeAll, ← ih]

end Sink

/-- A value is printed as if its text were written at once. -/
theorem Run.print_eq (value : Value) (position : Option Position) :
    print value position = (do
      let machine ← get
      let (sink, complete) := machine.sink.write (value.render ++ "\n")
      set { machine with sink }
      if complete then return .nil
      else throw (.reported (.orAt (.unlocated (.outputFailed Sink.refusal)) position))) := by
  unfold print
  simp only [Sink.writeAll_eq, String.join_append]
  rfl

/-! ## Printing with a limit -/

/-- What is printed for some values. -/
def Value.printed : List Value → ByteArray
  | [] => .empty
  | value :: values => (value.render ++ "\n").toUTF8 ++ printed values

namespace Sink

variable {limit : Nat} {written : ByteArray}

theorem write_unlimited (text : String) :
    write ⟨none, written⟩ text = (⟨none, written ++ text.toUTF8⟩, true) :=
  write_whole rfl

theorem write_limited (text : String) (fits : written.size + text.toUTF8.size ≤ limit) :
    write ⟨some limit, written⟩ text = (⟨some limit, written ++ text.toUTF8⟩, true) := by
  apply write_whole
  simp only [room]
  omega

theorem write_refused (text : String) (within : written.size ≤ limit)
    (exceeds : limit < written.size + text.toUTF8.size) :
    write ⟨some limit, written⟩ text =
      (⟨some limit, (written ++ text.toUTF8).extract 0 limit⟩, false) := by
  have taken : min text.toUTF8.size (limit - written.size) = limit - written.size := by omega
  have short : limit - written.size ≠ text.toUTF8.size := by omega
  simp only [write, room, taken, short, decide_false, ByteArray.extract_append, Nat.zero_sub,
    extract_of_size_le within]

end Sink

namespace Run

variable {limit : Nat} {machine : Machine}

theorem callNative_cons (value : Value) (values : List Value) (position : Option Position) :
    callNative .print (value :: values) position =
      print value position >>= fun _ => callNative .print values position := by
  simp only [callNative, List.forM, bind_assoc]
  rfl

theorem print_of_write {sink : Sink} {complete : Bool} {value : Value}
    (wrote : machine.sink.write (value.render ++ "\n") = (sink, complete))
    (position : Option Position) :
    print value position machine =
      if complete then .ok .nil { machine with sink }
      else .error (.reported (.orAt (.unlocated (.outputFailed Sink.refusal)) position))
        { machine with sink } := by
  rw [print_eq, bind_get, wrote]
  cases complete with
  | true => rfl
  | false => rfl

/-- Without a limit all values are printed. -/
theorem callNative_unlimited {written : ByteArray} (unlimited : machine.sink = ⟨none, written⟩)
    (arguments : List Value) (position : Option Position) :
    callNative .print arguments position machine =
      .ok .nil { machine with sink := ⟨none, written ++ Value.printed arguments⟩ } := by
  induction arguments generalizing machine written with
  | nil =>
      rw [Value.printed, ByteArray.append_empty, ← unlimited]
      rfl
  | cons value values ih =>
      have wrote : machine.sink.write (value.render ++ "\n") = _ :=
        unlimited ▸ Sink.write_unlimited _
      rw [callNative_cons, bind_of_ok (print_of_write wrote position), ih rfl, Value.printed,
        ByteArray.append_assoc]

/-- With a limit they are printed if there is room for all of them. -/
theorem callNative_limited {written : ByteArray} (limited : machine.sink = ⟨some limit, written⟩)
    {arguments : List Value} (fits : (written ++ Value.printed arguments).size ≤ limit)
    (position : Option Position) :
    callNative .print arguments position machine =
      .ok .nil { machine with sink := ⟨some limit, written ++ Value.printed arguments⟩ } := by
  induction arguments generalizing machine written with
  | nil =>
      rw [Value.printed, ByteArray.append_empty, ← limited]
      rfl
  | cons value values ih =>
      rw [Value.printed, ← ByteArray.append_assoc] at fits ⊢
      have room : written.size + (value.render ++ "\n").toUTF8.size ≤ limit := by
        simp only [ByteArray.size_append] at fits
        omega
      have wrote : machine.sink.write (value.render ++ "\n") = _ :=
        limited ▸ Sink.write_limited _ room
      rw [callNative_cons, bind_of_ok (print_of_write wrote position), ih rfl fits]

/-- Otherwise as much is printed as there is room for. -/
theorem callNative_refused {written : ByteArray} (limited : machine.sink = ⟨some limit, written⟩)
    {arguments : List Value} (within : written.size ≤ limit)
    (exceeds : limit < (written ++ Value.printed arguments).size) (position : Option Position) :
    callNative .print arguments position machine =
      .error (.reported (.orAt (.unlocated (.outputFailed Sink.refusal)) position))
        { machine with
          sink := ⟨some limit, (written ++ Value.printed arguments).extract 0 limit⟩ } := by
  induction arguments generalizing machine written with
  | nil =>
      rw [Value.printed, ByteArray.append_empty] at exceeds
      exact absurd within (Nat.not_le.mpr exceeds)
  | cons value values ih =>
      rw [Value.printed, ← ByteArray.append_assoc] at exceeds ⊢
      let text := (value.render ++ "\n").toUTF8
      by_cases room : written.size + text.size ≤ limit
      · have wrote : machine.sink.write (value.render ++ "\n") = _ :=
          limited ▸ Sink.write_limited _ room
        have still : (written ++ text).size ≤ limit := by
          rw [ByteArray.size_append]
          exact room
        rw [callNative_cons, bind_of_ok (print_of_write wrote position), ih rfl still exceeds]
      · have full : limit < written.size + text.size := Nat.not_le.mp room
        have wrote : machine.sink.write (value.render ++ "\n") = _ :=
          limited ▸ Sink.write_refused _ within full
        have enough : limit ≤ (written ++ text).size := by
          rw [ByteArray.size_append]
          exact Nat.le_of_lt full
        have stopped := print_of_write wrote position
        simp only [Bool.false_eq_true, if_false] at stopped
        rw [callNative_cons, Sink.extract_append_of_le enough]
        simp only [bind, EStateM.bind, stopped]
        rfl

end Run

end GradualScript
