/-!
# Platform macros

The macros by which a header names linkage and calling convention on every platform.
-/

namespace ApiHeaders

/-- The macros of a header whose API uses the `API`, `APIENTRY` and `API_NOEXCEPT` macros of a
namespace. They also open the `extern "C"` block that the end of the header closes. -/
def platformLines (scope : String) : List String := [
  "#ifdef __cplusplus",
  "extern \"C\" \x7b",
  "",
  "#ifdef _MSVC_LANG",
  "#define " ++ scope ++ "_CPLUSPLUS _MSVC_LANG",
  "#else",
  "#define " ++ scope ++ "_CPLUSPLUS __cplusplus",
  "#endif",
  "",
  "#ifndef AL_DISABLE_NOEXCEPT",
  "#if " ++ scope ++ "_CPLUSPLUS >= 201103L",
  "#define " ++ scope ++ "_API_NOEXCEPT noexcept",
  "#else",
  "#define " ++ scope ++ "_API_NOEXCEPT",
  "#endif",
  "#if " ++ scope ++ "_CPLUSPLUS >= 201703L",
  "#define " ++ scope ++ "_API_NOEXCEPT17 noexcept",
  "#else",
  "#define " ++ scope ++ "_API_NOEXCEPT17",
  "#endif",
  "",
  "#else /* AL_DISABLE_NOEXCEPT */",
  "",
  "#define " ++ scope ++ "_API_NOEXCEPT",
  "#define " ++ scope ++ "_API_NOEXCEPT17",
  "#endif",
  "",
  "#undef " ++ scope ++ "_CPLUSPLUS",
  "",
  "#else /* __cplusplus */",
  "",
  "#define " ++ scope ++ "_API_NOEXCEPT",
  "#define " ++ scope ++ "_API_NOEXCEPT17",
  "#endif",
  "",
  "#ifndef " ++ scope ++ "_API",
  " #if defined(AL_LIBTYPE_STATIC)",
  "  #define " ++ scope ++ "_API",
  " #elif defined(_WIN32)",
  "  #define " ++ scope ++ "_API __declspec(dllimport)",
  " #else",
  "  #define " ++ scope ++ "_API extern",
  " #endif",
  "#endif",
  "",
  "#ifdef _WIN32",
  " #define " ++ scope ++ "_APIENTRY __cdecl",
  "#else",
  " #define " ++ scope ++ "_APIENTRY",
  "#endif",
  ""]

/-- The platform macros of a namespace as a text. -/
def platformPreamble (scope : String) : String :=
  String.join ((platformLines scope).map (· ++ "\n"))

end ApiHeaders
