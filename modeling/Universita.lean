import Universita.Lib.Duo
import Universita.Lib.Stream
import Universita.Lib.Decimal
import Universita.Lib.Lexer
import Universita.Lib.Sql
import Universita.Lib.Log
import Universita.Schema
import Universita.Query
import Universita.Interroga
import Universita.Chiamate
import Universita.Mondo
import Universita.Segreteria
import Universita.Server
import Universita.Studente
import Universita.Anno
import Universita.Identita
import Universita.Iniezione
import Universita.Accesso
import Universita.Accordo
import Universita.Credenziali
import Universita.Decodifica
import Universita.Verita
import Universita.Accettata
import Universita.Disponibili
import Universita.Nominato
import Universita.Risposte
import Universita.Sistema
import Universita.Allineamento
import Universita.Turno
import Universita.Esiti
import Universita.Consegne
import Universita.Lib.Solo
import Universita.Lib.Mealy
import Universita.Giro
import Universita.Sessioni
import Universita.Descrittori
import Universita.Limiti
import Universita.Matricola
import Universita.Colloquio
import Universita.Dialogo
import Universita.Replica
import Universita.Conversazione
import Universita.Lib.Stdio
import Universita.Porta
import Universita.Tastiera
import Universita.Completezza
import Universita.Ascolto
import Universita.Riservatezza
import Universita.Tracciato
import Universita.Console
import Universita.Terminatori
import Universita.Digitazione
import Universita.Richieste
import Universita.Avvio
import Universita.Lib.Loop
import Universita.Trasferimenti
import Universita.Eco
import Universita.Testo
import Universita.Lib.Steps
import Universita.Registro
import Universita.Archivio
import Universita.Riscontro
import Universita.Attesa
import Universita.Atti
import Universita.Riferito
import Universita.Lib.Pool
import Universita.Preparazione
import Universita.Host
import Universita.Appuntamento
import Universita.Riavvii
import Universita.Rotazione
import Universita.Autenticati
import Universita.Istantanea
