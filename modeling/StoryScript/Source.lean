import StoryScript.Document.Command
import StoryScript.Json.Reader
import StoryScript.Script.Reader

/-! # Sources of scripts

A script comes from a text in the language of scripts or from a document that holds its
command tree. The bytes of a file are text if they are well-formed UTF-8.
-/

namespace StoryScript

inductive FileError where
  | missing
  | permissionDenied
  /-- A part of the path that has to be a directory is none. -/
  | notDirectory
  | isDirectory
  | nameTooLong
  | notText
deriving DecidableEq, Repr

namespace FileError

def message : FileError → String
  | missing => "No such file or directory (os error 2)"
  | permissionDenied => "Permission denied (os error 13)"
  | notDirectory => "Not a directory (os error 20)"
  | isDirectory => "Is a directory (os error 21)"
  | nameTooLong => "File name too long (os error 36)"
  | notText => "stream did not contain valid UTF-8"

def ofCode (code : Nat) : FileError :=
  match code with
  | 13 => permissionDenied
  | 20 => notDirectory
  | 21 => isDirectory
  | 36 => nameTooLong
  | _ => missing

end FileError

def decodeText (bytes : ByteArray) : Except FileError String :=
  match String.fromUTF8? bytes with
  | some text => .ok text
  | none => .error .notText

inductive SourceError where
  | file (error : FileError)
  | script (error : ScriptError)
  /-- The document is malformed or does not hold a command tree. -/
  | tree
deriving DecidableEq, Repr

namespace SourceError

def message : SourceError → String
  | file error => "IO error: " ++ error.message
  | script error => error.message
  | tree => "Invalid command tree:"

def line? : SourceError → Option Nat
  | script error => some error.line
  | _ => none

end SourceError

namespace Script

def ofDocument (text : String) : Except SourceError (List Command) :=
  match (Json.read? text.toList).bind scriptOfJson? with
  | some script => .ok script
  | none => .error .tree

def ofText (tabWidth : UInt64) (text : String) : Except SourceError (List Command) :=
  (read tabWidth text).mapError .script

def ofFile (content : Except FileError ByteArray) : Except SourceError (List Command) :=
  match content.bind decodeText with
  | .error error => .error (.file error)
  | .ok text => ofText defaultTabWidth text

end Script

end StoryScript
